import SafeSend.Connections.Authorize
import SafeSend.Lib.Trace
import SafeSend.Search.Held
import SafeSend.Search.Slack
/-!
# The registered sources

Which adapters a process registers when it starts, by what is configured, and what a run's mode then says.  A source that
has no credentials behind it is served from fixtures; that its runs say so, whatever happens to them, is the invariant.
-/
namespace SafeSend
namespace Search

open Lib
open Queue (ClaimedJob)
open Connections (OAuthSettings)

/-- What registration reads of the settings. -/
structure SourceSettings extends OAuthSettings where
  webSearchApiKey : String := ""

def hasApiKey (cfg : SourceSettings) : Bool := !Text.blank cfg.webSearchApiKey

def configuredSources (cfg : SourceSettings) : List (String × Bool) := [
  ("gmail", cfg.googleClientId != "" && cfg.googleClientSecret != ""),
  ("slack", cfg.slackClientId != "" && cfg.slackClientSecret != ""),
  ("web", hasApiKey cfg)]

abbrev Entries := List (String × Registration)

/-- `register`: by name, over what was there. -/
def register (source : String) (reg : Registration) (entries : Entries) : Entries := Dict.set source reg entries

/-- The keys of `_FIXTURES`. -/
def FIXTURES : List String := ["gmail", "slack", "web"]

def mockRegistration : Registration where
  mode := .mock
  requiresConnection := false

def registerFakeSources (only : Option (List String)) (entries : Entries) : Entries :=
  FIXTURES.foldl (fun entries source =>
    if only.all fun l => l.contains source then register source mockRegistration entries else entries) entries

def FAULT_PREFIX : String := "fault:"

def registerFaultAdapters (entries : Entries) : Entries :=
  ["transient", "permanent", "hang", "reconnect"].foldl (fun entries mode =>
    register (FAULT_PREFIX ++ mode) { mockRegistration with participatesByDefault := false } entries) entries

/-- `live.register_defaults`. -/
def registerDefaults (configured : String → Bool) (entries : Entries) : Entries :=
  let entries := if configured "gmail" then register "gmail" {} entries else entries
  let entries := if configured "slack" then register "slack" {} entries else entries
  let entries := register "web"
    { mode := if configured "web" then .live else .mock, requiresConnection := false } entries
  let unconfigured := ["gmail", "slack"].filter fun source => !configured source
  let entries := if unconfigured.isEmpty then entries else registerFakeSources (some unconfigured) entries
  registerFaultAdapters entries

/-- The source has credentials. -/
def configured (cfg : SourceSettings) (source : String) : Bool := ((configuredSources cfg).lookup source).getD false

/-- The registry of a process that has started under the settings. -/
def defaultRegistry (cfg : SourceSettings) (unknown : String → String) : Registry :=
  ⟨registerDefaults (configured cfg) [], unknown⟩

/-! ## What is registered -/

/-- What a run's mode may say of its source. -/
def Labelled (cfg : SourceSettings) (source : String) : SourceMode → Prop
  | .mock => configured cfg source = false
  | .live => configured cfg source = true
  | .degraded => source = "slack" ∧ configured cfg source = true

/-- The registrations, by which of the three sources are configured. -/
def entriesFor (gmail slack web : Bool) : Entries :=
  registerDefaults (fun source => if source = "gmail" then gmail else if source = "slack" then slack else web) []

theorem configured_eq (cfg : SourceSettings) (source : String) : configured cfg source =
    if source = "gmail" then configured cfg "gmail" else if source = "slack" then configured cfg "slack"
    else if source = "web" then configured cfg "web" else false := by
  have hkeys : (configuredSources cfg).map Prod.fst = ["gmail", "slack", "web"] := rfl
  by_cases hg : source = "gmail"
  · rw [if_pos hg, hg]
  by_cases hs : source = "slack"
  · rw [if_neg hg, if_pos hs, hs]
  by_cases hw : source = "web"
  · rw [if_neg hg, if_neg hs, if_pos hw, hw]
  rw [if_neg hg, if_neg hs, if_neg hw]
  unfold configured
  have hnone : (configuredSources cfg).lookup source = none := by
    rw [List.lookup_eq_none_iff]
    intro e he
    have hmem := List.mem_map_of_mem (f := Prod.fst) he
    rw [hkeys] at hmem
    simp only [List.mem_cons, List.not_mem_nil, or_false] at hmem
    exact bne_iff_ne.2 fun h => by
      rcases hmem with hm | hm | hm
      · exact hg (h.trans hm)
      · exact hs (h.trans hm)
      · exact hw (h.trans hm)
  rw [hnone]
  rfl

/-- **A source is registered as what it is.** -/
theorem labelled_registration {cfg : SourceSettings} {unknown : String → String} {source : String} {reg : Registration}
    (h : (defaultRegistry cfg unknown).registration source = .ok reg) : Labelled cfg source reg.mode := by
  have hall : ∀ gmail slack web : Bool, ∀ e ∈ entriesFor gmail slack web, e.2.mode =
      if (if e.1 = "gmail" then gmail else if e.1 = "slack" then slack else if e.1 = "web" then web else false) then .live
      else .mock := by decide
  unfold Registry.registration at h
  split at h
  next reg' hlookup =>
    cases h
    obtain ⟨l₁, l₂, hl, -⟩ := List.lookup_eq_some_iff.1 hlookup
    have hmem : (source, reg) ∈ (defaultRegistry cfg unknown).entries := hl ▸ List.mem_append_right _ List.mem_cons_self
    have hmode := hall (configured cfg "gmail") (configured cfg "slack") (configured cfg "web") (source, reg) hmem
    dsimp only at hmode
    rw [← configured_eq] at hmode
    rw [hmode]
    cases hc : configured cfg source with
    | true => exact hc
    | false => exact hc
  next => cases h

/-! ## What a run says of itself -/

/-- What an adapter reports of its mode: Slack's, that it fell back, and the others nothing. -/
def reports (cfg : SourceSettings) (source : String) : Option SourceMode → Bool
  | none => true
  | some .degraded => source == "slack" && configured cfg source
  | some _ => false

/-- The source a step has an answer of, and the mode the answer reports. -/
def reportOf (w : World) : Action → Option (String × Option SourceMode)
  | .step pid (.found (.ok found)) => (w.procs.get pid).bind fun p =>
    match p.body with
    | .op (.search source _ _) _ => some (source, found.reportedMode)
    | _ => none
  | _ => none

/-- The registered adapters are the ones that answer. -/
def asRegistered (cfg : SourceSettings) (w : World) (a : Action) : Bool :=
  (reportOf w a).all fun r => reports cfg r.1 r.2

theorem labelled_getD {cfg : SourceSettings} {source : String} {mode : SourceMode} {reported : Option SourceMode}
    (h : Labelled cfg source mode) (hr : reports cfg source reported = true) :
    Labelled cfg source (reported.getD mode) := by
  cases reported with
  | none => exact h
  | some m =>
    cases m with
    | degraded =>
      obtain ⟨hsource, hconf⟩ := Bool.and_eq_true_iff.1 hr
      exact ⟨beq_iff_eq.1 hsource, hconf⟩
    | live => cases hr
    | mock => cases hr

/-- The mode an execution is going to record, where its adapter reported one. -/
def Stage.mode : Stage → Option SourceMode
  | ranking _ found => found.reportedMode
  | deleting _ _ mode => mode
  | landing l _ => l.mode
  | _ => none

variable {settings : Settings} {D : Deployment} {cfg : SourceSettings} {unknown : String → String} {w t : World}
  {u v : Store} {p : Proc} {st st' : Stage} {job : ClaimedJob}

/-- What a statement that updates an execution's run leaves of the row. -/
structure Stage.Writes (st : Stage) (f : AdapterRunRow → AdapterRunRow) : Prop where
  about (r : AdapterRunRow) : (f r).source = r.source ∧ (f r).searchId = r.searchId ∧ (f r).connectionId = r.connectionId
  mode (r : AdapterRunRow) : (f r).mode = r.mode ∨ (f r).mode = st.mode.getD r.mode
  status (r : AdapterRunRow) : (f r).status = .needsReconnect → (f r).errorClass = some .needsReconnect

theorem failureStatus_eq {exc : Exn} (h : failureStatus exc = .needsReconnect) : classify exc = .needsReconnect := by
  unfold failureStatus at h
  split at h
  next hc => exact hc
  next => cases h

/-- **What an operation writes of the runs**: at most its own, which stays about what it was about. -/
theorem Stage.Next.writes (h : Stage.Next D job u st st' v) : v.runs = u.runs ∨
    ∃ run f, st.run = some run ∧ v.runs = u.runs.modify run.id f ∧ st.Writes f := by
  cases h with
  | started run _ => exact .inr ⟨run, _, rfl, rfl, fun _ => ⟨rfl, rfl, rfl⟩, fun _ => .inl rfl, fun _ hs => by cases hs⟩
  | unknown run _ => exact .inr ⟨run, _, rfl, rfl, fun _ => ⟨rfl, rfl, rfl⟩, fun _ => .inl rfl, fun _ hs => by cases hs⟩
  | landed l count => exact .inr ⟨l.run, _, rfl, rfl, fun _ => ⟨rfl, rfl, rfl⟩, fun _ => .inr rfl, fun _ hs => by cases hs⟩
  | recordedFailure run exc =>
    exact .inr ⟨run, _, rfl, rfl, fun _ => ⟨rfl, rfl, rfl⟩, fun _ => .inl rfl, fun _ hs => congrArg some (failureStatus_eq hs)⟩
  | _ => exact .inl rfl

/-- No run is forgotten, and each keeps its source. -/
def KeepsSources (u v : Store) : Prop := ∀ n r, u.runs.get n = some r → ∃ r', v.runs.get n = some r' ∧ r'.source = r.source

theorem keepsSources_of_eq (h : v.runs = u.runs) : KeepsSources u v := fun n r hr => ⟨r, by rw [h]; exact hr, rfl⟩

theorem Stage.Next.keepsSources (h : Stage.Next D job u st st' v) : KeepsSources u v := by
  rcases h.writes with hruns | ⟨run, f, -, hruns, hf⟩
  · exact keepsSources_of_eq hruns
  · intro n r hr
    rw [hruns]
    rcases u.runs.get_modify_or run.id f n with hsame | ⟨-, r₀, hr₀, hnew⟩
    · exact ⟨r, hsame.trans hr, rfl⟩
    · obtain rfl := Option.some.inj (hr.symm.trans hr₀)
      exact ⟨f r, hnew, (hf.about r).1⟩

/-- An execution works on a run of the source its row has, and records what the source's adapter reports. -/
def Stage.Sourced (cfg : SourceSettings) (u : Store) (st : Stage) : Prop := ∀ run, st.run = some run →
  (∃ r, u.runs.get run.id = some r ∧ r.source = run.source) ∧ reports cfg run.source st.mode = true

theorem Stage.Sourced.keeps (h : st.Sourced cfg u) (hk : KeepsSources u v) : st.Sourced cfg v := by
  intro run hr
  obtain ⟨⟨r, hget, hs⟩, hrep⟩ := h run hr
  obtain ⟨r', hget', hs'⟩ := hk _ r hget
  exact ⟨⟨r', hget', hs'.trans hs⟩, hrep⟩

/-- **Every run is labelled as what its source is**, and what is about to be recorded of one would be. -/
structure Honest (D : Deployment) (cfg : SourceSettings) (w : World) : Prop where
  rows : ∀ n r, w.store.runs.get n = some r → Labelled cfg r.source r.mode
  procs : ∀ pid p, w.procs.get pid = some p → ∃ st : Stage, p.body = st.rest D p.job ∧ st.Sourced cfg w.store

theorem Stage.mode_succeeded (run : LoadedRun) : (Stage.succeeded run).mode = none := by
  unfold Stage.succeeded
  cases run.connectionId with
  | none => rfl
  | some id => rfl

theorem Stage.mode_recorded (job : ClaimedJob) (run : LoadedRun) (exc : Exn) : (Stage.recorded job run exc).mode = none := by
  unfold Stage.recorded
  split
  next => rfl
  next => rfl

/-- The mode of the next stage is the one before it had, or none, unless it is the answer's. -/
theorem Stage.Next.mode (h : Stage.Next D job u st st' v) : st'.mode = none ∨
    st'.mode = st.mode ∧ st'.run = st.run ∨ ∃ run found, st = searching run ∧ st' = ranking run found := by
  cases h with
  | found run found => exact .inr (.inr ⟨run, found, rfl, rfl⟩)
  | landed l count => exact .inl (Stage.mode_succeeded l.run)
  | recordedFailure run exc => exact .inl (Stage.mode_recorded job run exc)
  | ranked | deleted => exact .inr (.inl ⟨rfl, rfl⟩)
  | _ => exact .inl rfl

theorem load_source {id : Nat} {run : LoadedRun} (h : u.load id = some run) :
    ∃ r, u.runs.get run.id = some r ∧ r.source = run.source := by
  simp only [Store.load, Option.bind_eq_some_iff, Option.map_eq_some_iff] at h
  obtain ⟨r, hr, s, -, rfl⟩ := h
  exact ⟨r, hr, rfl⟩

theorem Stage.Sourced.next (h : st.Sourced cfg u) (hn : Stage.Next D job u st st' v)
    (hfound : ∀ run found, st = searching run → st' = ranking run found →
      reports cfg run.source found.reportedMode = true) : st'.Sourced cfg v := by
  intro run hr
  have hrow : ∃ r, u.runs.get run.id = some r ∧ r.source = run.source := by
    rcases hn.run hr with hrun | hload
    · exact (h run hrun).1
    · exact load_source hload
  refine ⟨?_, ?_⟩
  · obtain ⟨r, hget, hs⟩ := hrow
    obtain ⟨r', hget', hs'⟩ := hn.keepsSources _ r hget
    exact ⟨r', hget', hs'.trans hs⟩
  · rcases hn.mode with hnone | ⟨hsame, hrun⟩ | ⟨run', found, rfl, rfl⟩
    · rw [hnone]
      rfl
    · rw [hsame]
      exact (h run (hrun.symm.trans hr)).2
    · obtain rfl := Option.some.inj hr
      exact hfound _ _ rfl rfl

/-! ## Planning -/

theorem planRuns_runs (settings : Settings) (searchId : Nat) : ∀ (l : List (String × Option Nat × SourceMode)) (u : Store),
    KeepsSources u (u.planRuns settings searchId l) ∧ ∀ n r, (u.planRuns settings searchId l).runs.get n = some r →
      u.runs.get n = some r ∨ ∃ x ∈ l, r.source = x.1 ∧ r.mode = x.2.2
  | [], u => ⟨keepsSources_of_eq rfl, fun _ _ hr => .inl hr⟩
  | (source, connectionId, mode) :: l, u => by
    obtain ⟨hkeeps, hnew⟩ := planRuns_runs settings searchId l (u.planRun settings searchId source connectionId mode)
    refine ⟨fun n r hr => ?_, fun n r hr => ?_⟩
    · exact hkeeps n r ((Table.get_insert_of_get _ hr).trans rfl)
    · rcases hnew n r hr with hold | ⟨x, hx, hsource, hmode⟩
      · rcases Table.get_insert_cases hold with ⟨-, rfl⟩ | ⟨-, hold⟩
        · exact .inr ⟨_, List.mem_cons_self, rfl, rfl⟩
        · exact .inl hold
      · exact .inr ⟨x, List.mem_cons_of_mem _ hx, hsource, hmode⟩

theorem registration_of_mem {R : Registry} : ∀ {l : List String} {chosen : List (String × Registration)},
    registrations R l = .ok chosen → ∀ e ∈ chosen, R.registration e.1 = .ok e.2
  | [], chosen, h => by
    cases h
    exact fun e he => by cases he
  | source :: l, chosen, h => by
    unfold registrations at h
    cases hr : R.registration source with
    | error e =>
      rw [hr] at h
      cases h
    | ok reg =>
      cases hl : registrations R l with
      | error e =>
        rw [hr, hl] at h
        cases h
      | ok rest =>
        rw [hr, hl] at h
        cases h
        intro e he
        rcases List.mem_cons.1 he with rfl | he
        · exact hr
        · exact registration_of_mem hl e he

/-- A planned run is labelled as its source was registered. -/
theorem labelled_planSearch (settings : Settings) {userId : Nat} {query : String} {sources : List String}
    (h : ∀ n r, u.runs.get n = some r → Labelled cfg r.source r.mode) :
    KeepsSources u (u.planSearch settings (defaultRegistry cfg unknown) userId query sources).2 ∧
      ∀ n r, (u.planSearch settings (defaultRegistry cfg unknown) userId query sources).2.runs.get n = some r →
        Labelled cfg r.source r.mode := by
  unfold Store.planSearch
  dsimp only
  generalize (if sources.isEmpty = true then (defaultRegistry cfg unknown).defaultSources else sources) = wanted
  split
  next => exact ⟨keepsSources_of_eq rfl, h⟩
  next =>
    split
    next => exact ⟨keepsSources_of_eq rfl, h⟩
    next chosen hchosen =>
      obtain ⟨hkeeps, hnew⟩ := planRuns_runs settings u.searches.next (u.fanOut userId chosen)
        { u with searches := u.searches.insert { userId := userId, query := query, createdAt := u.now } }
      refine ⟨hkeeps, fun n r hr => ?_⟩
      rcases hnew n r hr with hold | ⟨x, hx, hsource, hmode⟩
      · exact h n r hold
      · obtain ⟨e, he, hx⟩ := List.mem_flatMap.1 hx
        obtain ⟨c, -, rfl⟩ := List.mem_map.1 hx
        rw [hsource, hmode]
        exact labelled_registration (registration_of_mem hchosen e he)

/-! ## The runs of the system -/

theorem outside_runs {a : Action} (h : ∀ n r, u.runs.get n = some r → Labelled cfg r.source r.mode)
    (hs : u.outside settings (defaultRegistry cfg unknown) a = some v) :
    KeepsSources u v ∧ ∀ n r, v.runs.get n = some r → Labelled cfg r.source r.mode := by
  cases a <;> simp only [Store.outside, Option.some.injEq, reduceCtorEq, Option.ite_none_right_eq_some] at hs
  case plan userId query sources =>
    subst hs
    exact labelled_planSearch settings h
  case sweep began limit locked =>
    obtain ⟨-, rfl⟩ := hs
    exact ⟨keepsSources_of_eq rfl, h⟩
  all_goals
    subst hs
    exact ⟨keepsSources_of_eq rfl, h⟩

theorem Honest.procs_keep (h : Honest D cfg w) (hk : KeepsSources w.store v) {pid : Nat} (hp : w.procs.get pid = some p) :
    ∃ st : Stage, p.body = st.rest D p.job ∧ st.Sourced cfg v := by
  obtain ⟨st, hbody, hs⟩ := h.procs pid p hp
  exact ⟨st, hbody, hs.keeps hk⟩

/-- What an operation writes is labelled. -/
theorem Honest.rows_next (h : Honest D cfg w) (hs : st.Sourced cfg w.store) (hn : Stage.Next D job w.store st st' v)
    {n : Nat} {r : AdapterRunRow} (hr : v.runs.get n = some r) : Labelled cfg r.source r.mode := by
  rcases hn.writes with hruns | ⟨run, f, hrun, hruns, hf⟩
  · exact h.rows n r (hruns ▸ hr)
  · rw [hruns] at hr
    rcases Table.get_modify_cases hr with ⟨rfl, r₀, hr₀, rfl⟩ | ⟨-, hr⟩
    · obtain ⟨⟨r₁, hget, hsource⟩, hrep⟩ := hs run hrun
      obtain rfl := Option.some.inj (hr₀.symm.trans hget)
      have hold := h.rows _ r₀ hr₀
      rw [(hf.about r₀).1]
      rcases hf.mode r₀ with hmode | hmode
      · rw [hmode]
        exact hold
      · rw [hmode]
        exact labelled_getD hold (hsource ▸ hrep)
    · exact h.rows n r hr

theorem Honest.moved {a : Action} (hD : D.registry = defaultRegistry cfg unknown) (h : Honest D cfg w)
    (hok : asRegistered cfg w a = true) (hm : Moved settings D w a t) : Honest D cfg t := by
  cases hm with
  | outside _ store hout =>
    rw [hD] at hout
    obtain ⟨hkeeps, hrows⟩ := outside_runs h.rows hout
    exact ⟨hrows, fun pid p hp => h.procs_keep hkeeps hp⟩
  | claimed worker limit locked =>
    refine ⟨h.rows, fun pid p hp => ?_⟩
    rcases spawn_get hp with hp | ⟨-, job, hjob, rfl⟩
    · exact h.procs_keep (keepsSources_of_eq rfl) hp
    · exact ⟨.loading, rfl, fun run hr => by cases hr⟩
  | @ran pid e p body store hp hs =>
    obtain ⟨st, hbody, hsourced⟩ := h.procs pid p hp
    rw [hbody] at hs
    obtain ⟨st', rfl, hn, hanswer⟩ := Stage.next_answered hs
    have hfound : ∀ run found, st = .searching run → st' = .ranking run found →
        reports cfg run.source found.reportedMode = true := by
      rintro run found rfl hst'
      obtain rfl := hanswer run found hst'
      have hreport : reportOf w (.step pid (.found (.ok found))) = some (run.source, found.reportedMode) := by
        unfold reportOf
        dsimp only
        rw [hp, Option.bind_some, hbody]
        rfl
      unfold asRegistered at hok
      rw [hreport] at hok
      exact hok
    refine ⟨fun n r hr => h.rows_next hsourced hn hr, fun n q hq => ?_⟩
    rcases get_withBody hp hq with ⟨rfl, rfl⟩ | ⟨-, hq⟩
    · exact ⟨st', rfl, hsourced.next hn hfound⟩
    · exact h.procs_keep hn.keepsSources hq
  | @timedOut pid p o k hp hbody =>
    refine ⟨h.rows, fun n q hq => ?_⟩
    rcases get_withBody hp hq with ⟨rfl, rfl⟩ | ⟨-, hq⟩
    · exact ⟨.ended (.error (.os "")), rfl, fun run hr => by cases hr⟩
    · exact h.procs_keep (keepsSources_of_eq rfl) hq
  | finished pid trace draw hp hbody =>
    exact ⟨h.rows, fun n q hq => h.procs_keep (keepsSources_of_eq rfl) (get_without hq).2⟩
  | crashed pid hp => exact ⟨h.rows, fun n q hq => h.procs_keep (keepsSources_of_eq rfl) (get_without hq).2⟩

/-- **No source that is served from fixtures is ever shown as live**, and none with credentials as a mock: in every state,
whatever is planned, claimed, reclaimed, timed out or lost. -/
theorem modes_honest {F : Arithmetic} (h : (system settings ⟨defaultRegistry cfg unknown, F⟩).Reach
    (fun w a => asRegistered cfg w a = true) w) {n : Nat} {r : AdapterRunRow} (hr : w.store.runs.get n = some r) :
    Labelled cfg r.source r.mode := by
  have hhonest : Honest ⟨defaultRegistry cfg unknown, F⟩ cfg w := by
    refine Machine.Reach.inv (I := fun w => Honest ⟨defaultRegistry cfg unknown, F⟩ cfg w) ?_ ?_ h
    · exact ⟨(fun _ _ hr => by cases hr), fun _ _ hp => by cases hp⟩
    · intro w a t _ hi hok hs
      exact hi.moved rfl hok (moved_of_step hs)
  exact hhonest.rows n r hr

/-- A deployment with no credentials at all. -/
def bareDeployment : Deployment := ⟨defaultRegistry {} fun source => "no adapter for " ++ source, sampleDeployment.arithmetic⟩

theorem modes_honest_bare : ∃ w r, (system {} bareDeployment).exec {} (sampleSearch ++ sampleExecution 0) = some w ∧
    w.store.runs.get 0 = some r ∧ r.status = .done ∧ Labelled {} r.source r.mode := by
  have hallowed : (system {} bareDeployment).allowed (asRegistered {}) {} (sampleSearch ++ sampleExecution 0) = true := by
    decide +kernel
  have hend : ((system {} bareDeployment).exec {} (sampleSearch ++ sampleExecution 0)).any (fun w =>
      (w.store.runs.get 0).any fun r => r.status == .done) = true := by decide +kernel
  obtain ⟨w, hw, -, hp⟩ := Machine.reach_of_exec hend
  obtain ⟨r, hr, hdone⟩ := (Option.any_eq_true _ _).1 hp
  exact ⟨w, r, hw, hr, beq_iff_eq.1 hdone, modes_honest (Machine.Steps.of_exec (fun _ _ h => h) hw hallowed) hr⟩

end Search
end SafeSend
