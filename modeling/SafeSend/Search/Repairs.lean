import SafeSend.Search.Registered
import SafeSend.Search.Stream
/-!
# The way out of a revoked grant

What a client is told of a source that failed, and where the action it is offered goes.  A run has a connection of its
search's owner, with the provider its source is named by; so the action leads to authorizing that connection again.
-/
namespace SafeSend
namespace Search

open Lib Crypto
open Queue (ClaimedJob)
open Connections (BeginRequest OAuthSettings PROVIDERS asked beginConnection providerFor)

def authorizePath (provider : String) : String := "/v1/connections/" ++ provider ++ "/authorize"

/-- A run's row in a snapshot.  The tables here count from zero, and a serial counts from one. -/
def Store.sourceRow (w : Store) (r : AdapterRunRow) : SourceRow where
  source := r.source
  status := r.status
  mode := r.mode
  resultCount := r.resultCount
  errorClass := r.errorClass
  errorDetail := r.errorDetail
  connectionId := r.connectionId.map (· + 1)
  displayName := r.connectionId.bind fun c => (w.connections.get c).map (·.displayName)

/-- `GET /connections/{provider}/authorize`: the provider a path names, and the text of `reconnect`. -/
def authorizeRoute (url : String) : Option (String × Option String) :=
  let (path, query) := Paging.partition '?' url.toList
  match path.splitOn '/' with
  | [[], v1, connections, provider, authorize] =>
    if v1 = "v1".toList ∧ connections = "connections".toList ∧ authorize = "authorize".toList ∧ provider ≠ [] then
      some (String.ofList provider, ((Urls.parseQsl query).reverse.lookup "reconnect"))
    else none
  | _ => none

/-! ## Where the actions go -/

theorem splitOn_path (provider : ProviderKind) : (authorizePath provider.value).toList.splitOn '/' =
    [[], "v1".toList, "connections".toList, provider.value.toList, "authorize".toList] := by
  cases provider <;> decide +kernel

theorem not_mem_path (provider : ProviderKind) : '?' ∉ (authorizePath provider.value).toList := by
  cases provider <;> decide +kernel

theorem authorizeRoute_path (provider : ProviderKind) :
    authorizeRoute (authorizePath provider.value) = some (provider.value, none) := by
  cases provider <;> decide +kernel

/-- A text of digits is written as it is. -/
theorem quote_digits : ∀ {l : List Char}, (∀ c ∈ l, c.isDigit = true) → Urlencoded.quote (l.flatMap Text.encodeChar) = l
  | [], _ => rfl
  | c :: l, h => by
    have hall : ∀ n, n < 10 → Urlencoded.quote (Text.encodeChar (Char.ofNat (48 + n))) = [Char.ofNat (48 + n)] := by decide
    have hc := h c List.mem_cons_self
    rw [Char.isDigit, Bool.and_eq_true, decide_eq_true_eq, decide_eq_true_eq] at hc
    have hlow : 48 ≤ c.toNat := UInt32.le_iff_toNat_le.1 hc.1
    have hhigh : c.toNat ≤ 57 := UInt32.le_iff_toNat_le.1 hc.2
    have hone := hall (c.toNat - 48) (by omega)
    rw [Nat.add_sub_cancel' hlow, Char.ofNat_toNat] at hone
    unfold Urlencoded.quote at hone ⊢
    rw [List.flatMap_cons, List.flatMap_append, hone]
    exact congrArg (c :: ·) (quote_digits fun d hd => h d (List.mem_cons_of_mem _ hd))

theorem urlencode_reconnect (connectionId : Nat) : Urls.urlencode [("reconnect", toString connectionId)] =
    "reconnect=".toList ++ (toString connectionId).toList := by
  have hdigits : ∀ c ∈ (toString connectionId).toList, c.isDigit = true := by
    intro c hc
    have hmem : c ∈ Nat.toDigits 10 connectionId := by simpa [Nat.repr] using hc
    exact Nat.isDigit_of_mem_toDigits (by omega) (by omega) hmem
  have hname : Urlencoded.quote (Text.encode "reconnect") = "reconnect".toList := by decide
  have hvalue : Urlencoded.quote (Text.encode (toString connectionId)) = (toString connectionId).toList := quote_digits hdigits
  unfold Urls.urlencode Urlencoded.encode Urlencoded.field
  rw [List.map_singleton, List.map_singleton, List.intercalate_singleton, hname, hvalue]
  rfl

theorem toList_reconnectUrl (connectionId : Nat) (provider : String) : (reconnectUrl connectionId provider).toList =
    (authorizePath provider).toList ++ '?' :: Urls.urlencode [("reconnect", toString connectionId)] := by
  unfold reconnectUrl authorizePath
  simp only [urlencode_reconnect, String.toList_append, List.append_assoc]
  rfl

theorem authorizeRoute_reconnectUrl (connectionId : Nat) (provider : ProviderKind) :
    authorizeRoute (reconnectUrl connectionId provider.value) = some (provider.value, some (toString connectionId)) := by
  unfold authorizeRoute
  rw [toList_reconnectUrl, Paging.partition_append (not_mem_path provider)]
  dsimp only
  rw [splitOn_path, Urls.parseQsl_urlencode]
  have hname : provider.value.toList ≠ [] := by cases provider <;> decide
  simp [hname]

/-! ## What a run goes through -/

variable {settings : Settings} {D : Deployment} {u v : Store}

/-- Connections and searches stay whose they are. -/
structure Keeps (u v : Store) : Prop where
  connections : ∀ n c, u.connections.get n = some c →
    ∃ c', v.connections.get n = some c' ∧ c'.userId = c.userId ∧ c'.provider = c.provider
  searches : ∀ n s, u.searches.get n = some s → ∃ s', v.searches.get n = some s' ∧ s'.userId = s.userId

theorem Keeps.of_eq (hc : v.connections = u.connections) (hs : v.searches = u.searches) : Keeps u v where
  connections n c h := ⟨c, by rw [hc]; exact h, rfl, rfl⟩
  searches n s h := ⟨s, by rw [hs]; exact h, rfl⟩

/-- A run goes through a connection of its search's owner, to the provider its source is named by. -/
def Through (u : Store) (r : AdapterRunRow) : Prop := ∀ id, r.connectionId = some id → ∃ c s,
  u.connections.get id = some c ∧ u.searches.get r.searchId = some s ∧ c.userId = s.userId ∧ c.provider.value = r.source

/-- A run is where it belongs, and where it is to be reconnected it says so. -/
structure Routed (u : Store) (r : AdapterRunRow) : Prop where
  classed : r.status = .needsReconnect → r.errorClass = some .needsReconnect
  through : Through u r

theorem Through.keeps {r : AdapterRunRow} (h : Through u r) (hk : Keeps u v) : Through v r := by
  intro id hid
  obtain ⟨c, s, hc, hs, huser, hsource⟩ := h id hid
  obtain ⟨c', hc', hcuser, hprovider⟩ := hk.connections id c hc
  obtain ⟨s', hs', hsuser⟩ := hk.searches _ s hs
  exact ⟨c', s', hc', hs', by rw [hcuser, hsuser, huser], hprovider ▸ hsource⟩

theorem Routed.keeps {r : AdapterRunRow} (h : Routed u r) (hk : Keeps u v) : Routed v r := ⟨h.classed, h.through.keeps hk⟩

/-- An operation updates a connection's health, and closes a search. -/
theorem keeps_sem {o : Op} {e : Env} {x : o.Ans} (h : sem o e u = some (x, v)) : Keeps u v := by
  cases o <;> cases e <;> first | cases h; done | obtain ⟨rfl, -⟩ := answer_of_some h
  case recordSuccess.none id =>
    refine ⟨fun n c hc => ?_, fun n s hs => ⟨s, hs, rfl⟩⟩
    dsimp only
    rcases u.connections.get_updateWhere_cases id (fun c => c.status != .needsReconnect)
      (fun c => { c with status := .active }) n with hsame | ⟨-, c₀, hc₀, -, hnew⟩
    · exact ⟨c, hsame.trans hc, rfl, rfl⟩
    · obtain rfl := Option.some.inj (hc.symm.trans hc₀)
      exact ⟨_, hnew, rfl, rfl⟩
  case closeSearch.none id =>
    refine ⟨fun n c hc => ⟨c, hc, rfl, rfl⟩, fun n s hs => ?_⟩
    unfold Store.closeSearch
    dsimp only
    rcases u.searches.get_updateWhere_cases id (fun s => s.finishedAt.isNone && !u.unfinished id)
      (fun s => { s with finishedAt := some u.now }) n with hsame | ⟨-, s₀, hs₀, -, hnew⟩
    · exact ⟨s, hsame.trans hs, rfl⟩
    · obtain rfl := Option.some.inj (hs.symm.trans hs₀)
      exact ⟨_, hnew, rfl⟩
  all_goals exact Keeps.of_eq rfl rfl

/-- What an execution writes of the runs stays so. -/
theorem routed_next {job : ClaimedJob} {st st' : Stage} (h : ∀ n r, u.runs.get n = some r → Routed u r)
    (hn : Stage.Next D job u st st' v) (hk : Keeps u v) {n : Nat} {r : AdapterRunRow} (hr : v.runs.get n = some r) :
    Routed v r := by
  rcases hn.writes with hruns | ⟨run, f, -, hruns, hf⟩
  · exact (h n r (hruns ▸ hr)).keeps hk
  · rw [hruns] at hr
    rcases Table.get_modify_cases hr with ⟨rfl, r₀, hr₀, rfl⟩ | ⟨-, hr⟩
    · obtain ⟨hsource, hsearch, hconnection⟩ := hf.about r₀
      refine ⟨hf.status r₀, fun id hid => ?_⟩
      rw [hsource, hsearch]
      exact (h _ r₀ hr₀).through.keeps hk id (hconnection ▸ hid)
    · exact (h n r hr).keeps hk

/-! ## Planning -/

theorem activeConnections_get {userId id : Nat} {source : String} (h : id ∈ activeConnections u userId source) :
    ∃ c, u.connections.get id = some c ∧ c.userId = userId ∧ c.provider.value = source := by
  obtain ⟨⟨n, c⟩, hmem, rfl⟩ := List.mem_map.1 h
  obtain ⟨hrow, hp⟩ := List.mem_filter.1 hmem
  simp only [Bool.and_eq_true, beq_iff_eq] at hp
  exact ⟨c, Table.mem_rows.1 hrow, hp.1.1, hp.2⟩

theorem fanOut_through {userId : Nat} {chosen : List (String × Registration)} {x : String × Option Nat × SourceMode}
    (h : x ∈ u.fanOut userId chosen) {id : Nat} (hid : x.2.1 = some id) :
    ∃ c, u.connections.get id = some c ∧ c.userId = userId ∧ c.provider.value = x.1 := by
  obtain ⟨⟨source, reg⟩, -, h⟩ := List.mem_flatMap.1 h
  obtain ⟨c, hc, rfl⟩ := List.mem_map.1 h
  obtain rfl : c = some id := hid
  refine activeConnections_get ?_
  unfold connectionsFor at hc
  split at hc
  next =>
    cases hactive : activeConnections u userId source with
    | nil =>
      rw [hactive] at hc
      cases List.mem_singleton.1 hc
    | cons n l =>
      rw [hactive] at hc
      obtain ⟨k, hk, he⟩ := List.mem_map.1 hc
      obtain rfl := Option.some.inj he
      exact hk
  next => cases List.mem_singleton.1 hc

/-- Every planned run is so, once the search and the connections are there. -/
theorem routed_planRuns {searchId : Nat} : ∀ {l : List (String × Option Nat × SourceMode)} {u : Store},
    (∀ n r, u.runs.get n = some r → Routed u r) →
    (∀ x ∈ l, ∀ id, x.2.1 = some id → ∃ c s, u.connections.get id = some c ∧ u.searches.get searchId = some s ∧
      c.userId = s.userId ∧ c.provider.value = x.1) →
    Keeps u (u.planRuns settings searchId l) ∧
      ∀ n r, (u.planRuns settings searchId l).runs.get n = some r → Routed (u.planRuns settings searchId l) r
  | [], u, h, _ => ⟨Keeps.of_eq rfl rfl, h⟩
  | (source, connectionId, mode) :: l, u, h, hl => by
    have hrun : ∀ n r, (u.planRun settings searchId source connectionId mode).runs.get n = some r →
        Routed (u.planRun settings searchId source connectionId mode) r := by
      intro n r hr
      rcases Table.get_insert_cases hr with ⟨-, rfl⟩ | ⟨-, hr⟩
      · exact ⟨(fun hs => by cases hs), hl _ List.mem_cons_self⟩
      · exact (h n r hr).keeps (Keeps.of_eq rfl rfl)
    obtain ⟨hkeeps, hrouted⟩ := routed_planRuns hrun fun x hx => hl x (List.mem_cons_of_mem _ hx)
    exact ⟨⟨hkeeps.connections, hkeeps.searches⟩, hrouted⟩

theorem routed_planSearch {R : Registry} {userId : Nat} {query : String} {sources : List String}
    (h : ∀ n r, u.runs.get n = some r → Routed u r) : ∀ n r,
      (u.planSearch settings R userId query sources).2.runs.get n = some r →
        Routed (u.planSearch settings R userId query sources).2 r := by
  unfold Store.planSearch
  dsimp only
  generalize (if sources.isEmpty = true then R.defaultSources else sources) = wanted
  split
  next => exact h
  next =>
    split
    next => exact h
    next chosen hchosen =>
      refine (routed_planRuns (fun n r hr => ?_) fun x hx id hid => ?_).2
      · refine (h n r hr).keeps ⟨fun n c hc => ⟨c, hc, rfl, rfl⟩, fun n s hs => ?_⟩
        exact ⟨s, Table.get_insert_of_get _ hs, rfl⟩
      · obtain ⟨c, hc, huser, hprovider⟩ := fanOut_through hx hid
        exact ⟨c, _, hc, Table.get_insert_self _ _, huser, hprovider⟩

/-! ## The runs of the system -/

/-- A connection's row, whatever its status. -/
theorem keeps_connectionStatus (id : Nat) (status : ConnStatus) :
    Keeps u { u with connections := u.connections.modify id fun c => { c with status := status } } := by
  refine ⟨fun n c hc => ?_, fun n s hs => ⟨s, hs, rfl⟩⟩
  dsimp only
  rcases u.connections.get_modify_or id (fun c => { c with status := status }) n with hsame | ⟨-, c₀, hc₀, hnew⟩
  · exact ⟨c, hsame.trans hc, rfl, rfl⟩
  · obtain rfl := Option.some.inj (hc.symm.trans hc₀)
    exact ⟨_, hnew, rfl, rfl⟩

theorem routed_outside {a : Action} (h : ∀ n r, u.runs.get n = some r → Routed u r)
    (hs : u.outside settings D.registry a = some v) : ∀ n r, v.runs.get n = some r → Routed v r := by
  cases a <;> simp only [Store.outside, Option.some.injEq, reduceCtorEq, Option.ite_none_right_eq_some] at hs
  case plan userId query sources =>
    subst hs
    exact routed_planSearch h
  case sweep began limit locked =>
    obtain ⟨-, rfl⟩ := hs
    exact fun n r hr => (h n r hr).keeps (Keeps.of_eq rfl rfl)
  case connect row =>
    subst hs
    refine fun n r hr => (h n r hr).keeps ⟨fun n c hc => ?_, fun n s hs => ⟨s, hs, rfl⟩⟩
    exact ⟨c, Table.get_insert_of_get _ hc, rfl, rfl⟩
  case connectionStatus id status =>
    subst hs
    exact fun n r hr => (h n r hr).keeps (keeps_connectionStatus id status)
  case tick elapsed =>
    subst hs
    exact fun n r hr => (h n r hr).keeps (Keeps.of_eq rfl rfl)

/-- An execution is at a stage of its handler. -/
def Staged (D : Deployment) (w : World) : Prop := ∀ pid p, w.procs.get pid = some p → ∃ st : Stage, p.body = st.rest D p.job

structure Repairable (D : Deployment) (w : World) : Prop where
  staged : Staged D w
  routed : ∀ n r, w.store.runs.get n = some r → Routed w.store r

theorem Repairable.moved {w t : World} {a : Action} (h : Repairable D w) (hm : Moved settings D w a t) : Repairable D t := by
  cases hm with
  | outside _ store hout => exact ⟨h.staged, routed_outside h.routed hout⟩
  | claimed worker limit locked =>
    refine ⟨fun pid p hp => ?_, fun n r hr => (h.routed n r hr).keeps (Keeps.of_eq rfl rfl)⟩
    rcases spawn_get hp with hp | ⟨-, job, hjob, rfl⟩
    · exact h.staged pid p hp
    · exact ⟨.loading, rfl⟩
  | @ran pid e p body store hp hs =>
    obtain ⟨st, hbody⟩ := h.staged pid p hp
    obtain ⟨o, k, x, -, hsem, -⟩ := Prog.step_eq_some hs
    rw [hbody] at hs
    obtain ⟨st', rfl, hn⟩ := Stage.next_of_step hs
    refine ⟨fun n q hq => ?_, fun n r hr => routed_next h.routed hn (keeps_sem hsem) hr⟩
    rcases get_withBody hp hq with ⟨rfl, rfl⟩ | ⟨-, hq⟩
    · exact ⟨st', rfl⟩
    · exact h.staged n q hq
  | @timedOut pid p o k hp hbody =>
    refine ⟨fun n q hq => ?_, h.routed⟩
    rcases get_withBody hp hq with ⟨rfl, rfl⟩ | ⟨-, hq⟩
    · exact ⟨.ended (.error (.os "")), rfl⟩
    · exact h.staged n q hq
  | finished pid trace draw hp hbody =>
    refine ⟨fun n q hq => h.staged n q (get_without hq).2, fun n r hr => ?_⟩
    exact (h.routed n r hr).keeps (Keeps.of_eq rfl rfl)
  | crashed pid hp => exact ⟨fun n q hq => h.staged n q (get_without hq).2, h.routed⟩

theorem repairable {w : World} (h : (system settings D).Reach (fun _ _ => True) w) : Repairable D w := by
  refine Machine.Reach.inv (I := Repairable D) ?_ ?_ h
  · exact ⟨(fun _ _ hp => by cases hp), fun _ _ hr => by cases hr⟩
  · intro w a t _ hi _ hs
    exact hi.moved (moved_of_step hs)

/-- An action a client is offered leads to the provider: to its own endpoint, and to consent where Google needs it. -/
structure LeadsTo (url : String) (userId : Nat) (provider : ProviderKind) (reconnecting : Option Nat) : Prop where
  route : authorizeRoute url = some (provider.value, reconnecting.map toString)
  begun (ring : Keyring) (cfg : OAuthSettings) (t : Connections.Rows) (nonce : String) (now : Int) (a : Connections.Authorization)
    (h : beginConnection ring cfg t { userId := userId, providerName := provider.value, reconnectConnectionId := reconnecting }
      nonce now = .ok a) : (asked a.url).1 = (PROVIDERS provider).authorizeUrl.toList ∧
    (reconnecting.isSome = true → (Dict.get "prompt" (asked a.url).2 = some "consent" ↔ provider = .gmail))

theorem leadsTo {url : String} {userId : Nat} {provider : ProviderKind} {reconnecting : Option Nat}
    (h : authorizeRoute url = some (provider.value, reconnecting.map toString)) :
    LeadsTo url userId provider reconnecting := by
  refine ⟨h, fun ring cfg t nonce now a hbegin => ?_⟩
  obtain ⟨provider', clientId, secret, hprovider, -, hasked⟩ := Connections.begin_asked hbegin
  have hsame : provider' = provider := by
    have hvalue : provider.value = provider'.value := Connections.providerFor_eq_ok hprovider
    cases provider <;> cases provider' <;> first | rfl | exact absurd hvalue (by decide)
  subst hsame
  rw [hasked]
  refine ⟨rfl, fun hrepair => ?_⟩
  rw [Connections.get_prompt, Connections.shouldForceConsent_iff]
  exact ⟨fun hp => hp.1, fun hp => ⟨hp, .inl hrepair⟩⟩

/-- **Who is told to reconnect is led to the provider the run goes through**, under the connection it goes through, which
is the searcher's own; or to connecting it, where there was none. -/
theorem repairs_lead_home {w : World} (h : (system settings D).Reach (fun _ _ => True) w) {n : Nat} {r : AdapterRunRow}
    (hr : w.store.runs.get n = some r) (hs : r.status = .needsReconnect) :
    ∃ e, (sourceView (w.store.sourceRow r)).error = some e ∧ e.classification = .needsReconnect ∧
      match r.connectionId with
      | some id => ∃ url c s, e.actionUrl = some url ∧ e.reconnectUrl = some url ∧ w.store.connections.get id = some c ∧
        w.store.searches.get r.searchId = some s ∧ c.userId = s.userId ∧ LeadsTo url s.userId c.provider (some (id + 1))
      | none => ∃ url, e.actionUrl = some url ∧ e.reconnectUrl = none ∧
        ∀ provider : ProviderKind, r.source = provider.value → ∀ userId, LeadsTo url userId provider none := by
  have hrouted := (repairable h).routed n r hr
  have hclass : (w.store.sourceRow r).errorClass = some .needsReconnect := hrouted.classed hs
  unfold sourceView SourceRow.error
  rw [hclass, Option.map_some]
  dsimp only
  cases hid : r.connectionId with
  | none =>
    have hrow : (w.store.sourceRow r).connected = none := by
      unfold SourceRow.connected Store.sourceRow
      rw [hid]
      rfl
    rw [hrow]
    refine ⟨_, rfl, rfl, _, rfl, rfl, fun provider hsource userId => leadsTo ?_⟩
    have hto := authorizeRoute_path provider
    rw [← hsource] at hto
    exact hto.trans (by rw [hsource]; rfl)
  | some id =>
    have hrow : (w.store.sourceRow r).connected = some (id + 1) := by
      unfold SourceRow.connected Store.sourceRow
      rw [hid]
      rfl
    rw [hrow]
    obtain ⟨c, s, hc, hsearch, huser, hsource⟩ := hrouted.through id hid
    refine ⟨_, rfl, rfl, _, c, s, rfl, rfl, hc, hsearch, huser, leadsTo ?_⟩
    have hto := authorizeRoute_reconnectUrl (id + 1) c.provider
    rw [hsource] at hto
    exact hto.trans (by rw [← hsource]; rfl)

/-- A deployment that reads mail. -/
def mailDeployment : Deployment := ⟨⟨[("gmail", {})], fun source => "no adapter for " ++ source⟩, sampleDeployment.arithmetic⟩

/-- A search of a mailbox whose grant is gone. -/
def revokedSearch : List Action :=
  [.connect ⟨1, .gmail, .active, "user1@acme.example"⟩, .plan 1 "launch" [], .claim "host:1" 5 fun _ => false,
    .step 0 .none, .step 0 .none, .step 0 (.found (.error (.tokenUnavailable "revoked"))), .step 0 .none]

theorem repairs_lead_home_revoked : ∃ w r e url, (system {} mailDeployment).exec {} revokedSearch = some w ∧
    w.store.runs.get 0 = some r ∧ (sourceView (w.store.sourceRow r)).error = some e ∧ e.actionUrl = some url ∧
    LeadsTo url 1 .gmail (some 1) := by
  have hend : ((system {} mailDeployment).exec {} revokedSearch).any (fun w =>
      (w.store.runs.get 0).any (fun r => r.status == .needsReconnect && r.connectionId == some 0 && r.searchId == 0) &&
        (w.store.connections.get 0).any (fun c => c.provider == .gmail) &&
        (w.store.searches.get 0).any fun s => s.userId == 1) = true := by decide +kernel
  obtain ⟨w, hw, hreach, hp⟩ := Machine.reach_of_exec hend
  simp only [Bool.and_eq_true, Option.any_eq_true, beq_iff_eq] at hp
  obtain ⟨⟨⟨r, hr, ⟨hstatus, hid⟩, hsearch⟩, c₀, hc₀, hgmail⟩, s₀, hs₀, huser⟩ := hp
  obtain ⟨e, he, -, hlead⟩ := repairs_lead_home hreach hr hstatus
  rw [hid] at hlead
  obtain ⟨url, c, s, hurl, -, hc, hs, -, hto⟩ := hlead
  obtain rfl := Option.some.inj (hc₀.symm.trans hc)
  rw [hsearch] at hs
  obtain rfl := Option.some.inj (hs₀.symm.trans hs)
  rw [huser, hgmail] at hto
  exact ⟨w, r, e, url, hw, hr, he, hurl, hto⟩

end Search
end SafeSend
