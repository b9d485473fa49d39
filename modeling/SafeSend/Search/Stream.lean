import SafeSend.Enums
import SafeSend.Lib.Changes
/-!
# The progress stream

What the generator of `GET /searches/{id}/events` reads and sends, as one log: the rows of every snapshot as it comes to
them, and the events.  A snapshot's rows are the runs of a search, one for each source and connection.
-/
namespace SafeSend
namespace Search

open Lib

/-- A row of `snapshot.sources`. -/
structure SourceRow where
  source : String
  status : RunStatus
  mode : SourceMode
  resultCount : Nat
  errorClass : Option ErrorClass := none
  errorDetail : Option String := none
  connectionId : Option Nat := none
  displayName : Option String := none
  deriving DecidableEq, Repr

structure SourceError where
  code : String
  classification : ErrorClass
  message : Option String
  actionUrl : Option String
  reconnectUrl : Option String
  deriving DecidableEq, Repr

structure SourceView where
  source : String
  status : RunStatus
  mode : SourceMode
  resultCount : Nat
  connectionId : Option Nat
  displayName : Option String
  error : Option SourceError
  deriving DecidableEq, Repr

/-- `connections_service.reconnect_url`. -/
def reconnectUrl (connectionId : Nat) (provider : String) : String :=
  "/v1/connections/" ++ provider ++ "/authorize?reconnect=" ++ toString connectionId

/-- `bool(row["connection_id"])`, of the id that passes it. -/
def SourceRow.connected (row : SourceRow) : Option Nat := row.connectionId.filter (· ≠ 0)

/-- The `error` of `_source_view`. -/
def SourceRow.error (row : SourceRow) : Option SourceError :=
  row.errorClass.map fun errorClass =>
    let actionable := errorClass = .needsReconnect
    { code :=
        if actionable then
          if row.connected.isSome then "connection_needs_reconnect" else "connection_not_connected"
        else "provider_unavailable"
      classification := errorClass
      message := row.errorDetail
      actionUrl :=
        if actionable then
          some (match row.connected with
            | some id => reconnectUrl id row.source
            | none => "/v1/connections/" ++ row.source ++ "/authorize")
        else none
      reconnectUrl := if actionable then row.connected.map fun id => reconnectUrl id row.source else none }

def sourceView (row : SourceRow) : SourceView :=
  ⟨row.source, row.status, row.mode, row.resultCount, row.connectionId, row.displayName, row.error⟩

/-- What the stream compares: `(str(row["status"]), int(row["result_count"]))`. -/
abbrev Fingerprint := RunStatus × Nat

def SourceRow.fingerprint (row : SourceRow) : Fingerprint := (row.status, row.resultCount)

inductive Event
  | sourceUpdate (view : SourceView)
  | searchComplete (searchId resultCount : Nat)
  | streamTimeout (searchId : Nat)
  | keepAlive
  deriving DecidableEq, Repr

/-- One entry of the log. -/
inductive Streamed
  | read (row : SourceRow)
  | sent (event : Event)
  deriving DecidableEq, Repr

structure StreamSnapshot where
  searchId : Nat
  finished : Bool
  sources : List SourceRow
  /-- `len(snapshot.results)`. -/
  resultCount : Nat

/-- One turn of the loop: what it loads, and its clock after its last update and at its end, in microseconds. -/
structure Poll where
  snapshot : Option StreamSnapshot
  beat : Int
  now : Int

def SSE_HEARTBEAT_SECONDS : Int := 15
def SSE_MAX_SECONDS : Int := 300

def seconds (n : Int) : Int := n * 1000000

abbrev Seen := String → Option Fingerprint

/-- `for row in snapshot.sources`. -/
def report : Seen → List SourceRow → List Streamed × Seen
  | seen, [] => ([], seen)
  | seen, row :: rows =>
    if seen row.source ≠ some row.fingerprint then
      let (log, last) := report (Function.update seen row.source (some row.fingerprint)) rows
      (.read row :: .sent (.sourceUpdate (sourceView row)) :: log, last)
    else
      let (log, last) := report seen rows
      (.read row :: log, last)

def Streamed.isSent : Streamed → Bool
  | .sent _ => true
  | .read _ => false

/-- `while True`, over what it loads; the client may leave after any of it. -/
def eventsFrom (started : Int) : Int → Seen → List Poll → List Streamed
  | _, _, [] => []
  | lastBeat, seen, poll :: polls =>
    match poll.snapshot with
    | none => []
    | some snapshot =>
      let (log, seen) := report seen snapshot.sources
      let lastBeat := if log.any Streamed.isSent then poll.beat else lastBeat
      if snapshot.finished then log ++ [.sent (.searchComplete snapshot.searchId snapshot.resultCount)]
      else if poll.now - started > seconds SSE_MAX_SECONDS then log ++ [.sent (.streamTimeout snapshot.searchId)]
      else if poll.now - lastBeat ≥ seconds SSE_HEARTBEAT_SECONDS then
        log ++ .sent .keepAlive :: eventsFrom started poll.now seen polls
      else log ++ eventsFrom started lastBeat seen polls

def events (started : Int) (polls : List Poll) : List Streamed := eventsFrom started started (fun _ => none) polls

/-! ## What the stream should report -/

/-- `(source, connection_id)`: a row of the search. -/
abbrev RowKey := String × Option Nat

def SourceRow.key (row : SourceRow) : RowKey := (row.source, row.connectionId)
def SourceView.key (view : SourceView) : RowKey := (view.source, view.connectionId)
def SourceView.fingerprint (view : SourceView) : Fingerprint := (view.status, view.resultCount)

def reads (log : List Streamed) : List SourceRow :=
  log.filterMap fun
    | .read row => some row
    | .sent _ => none

def updates (log : List Streamed) : List SourceView :=
  log.filterMap fun
    | .sent (.sourceUpdate view) => some view
    | _ => none

/-- What was last read of a row, and what was last sent of it. -/
def lastRead (log : List Streamed) : RowKey → Option Fingerprint := lastOf SourceRow.key SourceRow.fingerprint (reads log)
def lastSent (log : List Streamed) : RowKey → Option Fingerprint :=
  lastOf SourceView.key SourceView.fingerprint (updates log)

/-- A row is reported where it is read exactly when it changed, and a search completes with nothing left to report. -/
structure ReportsChanges (log : List Streamed) : Prop where
  exactly : AtEach (fun before step after => ∀ row, step = .read row →
    (after.head? = some (.sent (.sourceUpdate (sourceView row))) ↔ lastSent before row.key ≠ some row.fingerprint)) log
  only : AtEach (fun before step _ => ∀ view, step = .sent (.sourceUpdate view) →
    ∃ row, before.getLast? = some (.read row) ∧ view = sourceView row) log
  complete : ∀ searchId resultCount, .sent (.searchComplete searchId resultCount) ∈ log →
    ∀ key, lastSent log key = lastRead log key

/-- The rows a stream comes to before it ends. -/
def streamed (started : Int) : List Poll → List SourceRow
  | [] => []
  | poll :: polls =>
    match poll.snapshot with
    | none => []
    | some snapshot =>
      if snapshot.finished ∨ poll.now - started > seconds SSE_MAX_SECONDS then snapshot.sources
      else snapshot.sources ++ streamed started polls

/-- Where a row is read, its own last reading and its source's say alike whether it is a change. -/
def SourcesAgree (rows : List SourceRow) : Prop :=
  AtEach (fun before row _ => lastOf SourceRow.source SourceRow.fingerprint before row.source = some row.fingerprint ↔
    lastOf SourceRow.key SourceRow.fingerprint before row.key = some row.fingerprint) rows

/-! ## The generator's memory -/

/-- A log that keeps to its memory: it tells what the memory does not hold, and remembers it. -/
inductive Follows : Seen → List Streamed → Prop
  | nil (seen : Seen) : Follows seen []
  | quiet {seen : Seen} {row : SourceRow} {log : List Streamed} (hseen : seen row.source = some row.fingerprint)
    (hlog : Follows seen log) : Follows seen (.read row :: log)
  | told {seen : Seen} {row : SourceRow} {log : List Streamed} (hnew : seen row.source ≠ some row.fingerprint)
    (hlog : Follows (Function.update seen row.source (some row.fingerprint)) log) :
    Follows seen (.read row :: .sent (.sourceUpdate (sourceView row)) :: log)
  | other {seen : Seen} {event : Event} {log : List Streamed} (hevent : ∀ view, event ≠ .sourceUpdate view)
    (hlog : Follows seen log) : Follows seen (.sent event :: log)

theorem follows_report : ∀ (rows : List SourceRow) {seen : Seen} {log : List Streamed},
    Follows (report seen rows).2 log → Follows seen ((report seen rows).1 ++ log)
  | [], _, _, h => h
  | row :: rows, seen, log, h => by
    unfold report at h ⊢
    by_cases hseen : seen row.source ≠ some row.fingerprint
    · rw [if_pos hseen] at h ⊢
      exact .told hseen (follows_report rows h)
    · rw [if_neg hseen] at h ⊢
      exact .quiet (not_not.1 hseen) (follows_report rows h)

theorem eventsFrom_follows (started : Int) : ∀ (polls : List Poll) (lastBeat : Int) (seen : Seen),
    Follows seen (eventsFrom started lastBeat seen polls)
  | [], _, seen => .nil seen
  | poll :: polls, lastBeat, seen => by
    unfold eventsFrom
    cases poll.snapshot with
    | none => exact .nil seen
    | some snapshot =>
      have ends {event : Event} (hevent : ∀ view, event ≠ .sourceUpdate view) {log : List Streamed}
          (hlog : Follows (report seen snapshot.sources).2 log) :
          Follows seen ((report seen snapshot.sources).1 ++ .sent event :: log) :=
        follows_report _ (.other hevent hlog)
      dsimp only
      generalize (if (report seen snapshot.sources).1.any Streamed.isSent then poll.beat else lastBeat) = beat
      split
      · exact ends (fun _ h => Event.noConfusion h) (.nil _)
      · split
        · exact ends (fun _ h => Event.noConfusion h) (.nil _)
        · split
          · exact ends (fun _ h => Event.noConfusion h) (eventsFrom_follows started polls _ _)
          · exact follows_report _ (eventsFrom_follows started polls _ _)

theorem Follows.head_ne {seen : Seen} {log : List Streamed} (h : Follows seen log) (view : SourceView) :
    log.head? ≠ some (.sent (.sourceUpdate view)) := by
  intro hhead
  cases h with
  | nil => cases hhead
  | quiet => cases hhead
  | told => cases hhead
  | other hevent => exact hevent view (Streamed.sent.inj (Option.some.inj hhead))

/-! ## What is read and what is sent, entry by entry -/

theorem reads_append (l m : List Streamed) : reads (l ++ m) = reads l ++ reads m := List.filterMap_append

theorem updates_append (l m : List Streamed) : updates (l ++ m) = updates l ++ updates m := List.filterMap_append

theorem lastRead_read (log : List Streamed) (row : SourceRow) (k : RowKey) :
    lastRead (log ++ [.read row]) k = if row.key = k then some row.fingerprint else lastRead log k := by
  unfold lastRead
  rw [reads_append]
  exact lastOf_concat _ _ _ _ _

theorem lastRead_sent (log : List Streamed) (event : Event) (k : RowKey) :
    lastRead (log ++ [.sent event]) k = lastRead log k := by
  unfold lastRead
  rw [reads_append]
  exact congrArg (fun rows => lastOf SourceRow.key SourceRow.fingerprint rows k) (List.append_nil _)

theorem lastSent_update (log : List Streamed) (row : SourceRow) (k : RowKey) :
    lastSent (log ++ [.sent (.sourceUpdate (sourceView row))]) k =
      if row.key = k then some row.fingerprint else lastSent log k := by
  unfold lastSent
  rw [updates_append]
  exact lastOf_concat SourceView.key SourceView.fingerprint (updates log) (sourceView row) k

theorem lastSent_other (log : List Streamed) {step : Streamed} (h : ∀ view, step ≠ .sent (.sourceUpdate view))
    (k : RowKey) : lastSent (log ++ [step]) k = lastSent log k := by
  have hnone : updates [step] = [] := by
    cases step with
    | read => rfl
    | sent event =>
      cases event with
      | sourceUpdate view => exact absurd rfl (h view)
      | _ => rfl
  unfold lastSent
  rw [updates_append, hnone, List.append_nil]

/-! ## The stream reports changes where the sources agree -/

/-- A log reports changes after what came before it. -/
def ReportsAfter (before log : List Streamed) : Prop :=
  AtEach (fun more step after => ∀ row, step = .read row →
    (after.head? = some (.sent (.sourceUpdate (sourceView row))) ↔
      lastSent (before ++ more) row.key ≠ some row.fingerprint)) log

def AgreeAfter (before rows : List SourceRow) : Prop :=
  AtEach (fun more row _ => lastOf SourceRow.source SourceRow.fingerprint (before ++ more) row.source =
      some row.fingerprint ↔
    lastOf SourceRow.key SourceRow.fingerprint (before ++ more) row.key = some row.fingerprint) rows

theorem reportsAfter_read (before : List Streamed) (row : SourceRow) (log : List Streamed) :
    ReportsAfter before (.read row :: log) ↔
      (log.head? = some (.sent (.sourceUpdate (sourceView row))) ↔ lastSent before row.key ≠ some row.fingerprint) ∧
        ReportsAfter (before ++ [.read row]) log := by
  unfold ReportsAfter
  rw [atEach_cons]
  simp only [List.append_nil, List.append_assoc, List.singleton_append]
  refine and_congr_left fun _ => ⟨fun h => h row rfl, fun h r hr => ?_⟩
  obtain rfl := Streamed.read.inj hr
  exact h

theorem reportsAfter_sent (before : List Streamed) (event : Event) (log : List Streamed) :
    ReportsAfter before (.sent event :: log) ↔ ReportsAfter (before ++ [.sent event]) log := by
  unfold ReportsAfter
  rw [atEach_cons]
  simp only [List.append_assoc, List.singleton_append]
  exact and_iff_right fun _ hr => nomatch hr

theorem reads_read (before : List Streamed) (row : SourceRow) : reads (before ++ [.read row]) = reads before ++ [row] :=
  reads_append _ _

theorem reads_sent (before : List Streamed) (event : Event) : reads (before ++ [.sent event]) = reads before := by
  rw [reads_append]
  exact List.append_nil _

theorem agreeAfter_read (before : List Streamed) (row : SourceRow) (log : List Streamed) :
    AgreeAfter (reads before) (reads (.read row :: log)) ↔
      (lastOf SourceRow.source SourceRow.fingerprint (reads before) row.source = some row.fingerprint ↔
        lastRead before row.key = some row.fingerprint) ∧ AgreeAfter (reads (before ++ [.read row])) (reads log) := by
  have hreads : reads (.read row :: log) = row :: reads log := rfl
  rw [hreads, reads_read]
  unfold AgreeAfter
  rw [atEach_cons]
  simp only [List.append_nil, List.append_assoc, List.singleton_append]
  exact Iff.rfl

/-- What the log holds so far: the memory is what was last read of each source, and every row was told as last read. -/
structure Remembered (seen : Seen) (before : List Streamed) : Prop where
  memory : ∀ source, seen source = lastOf SourceRow.source SourceRow.fingerprint (reads before) source
  told : ∀ key, lastSent before key = lastRead before key

theorem Remembered.quiet {seen : Seen} {before : List Streamed} (h : Remembered seen before) {row : SourceRow}
    (hseen : seen row.source = some row.fingerprint) (hsame : lastRead before row.key = some row.fingerprint) :
    Remembered seen (before ++ [.read row]) where
  memory source := by
    rw [reads_append]
    refine (h.memory source).trans (Eq.trans ?_ (lastOf_concat _ _ _ row source).symm)
    by_cases heq : row.source = source
    · rw [if_pos heq, ← heq, ← h.memory, hseen]
    · rw [if_neg heq]
  told key := by
    rw [lastSent_other _ (fun _ hstep => by cases hstep), lastRead_read, h.told]
    by_cases heq : row.key = key
    · rw [if_pos heq, ← heq, hsame]
    · rw [if_neg heq]

theorem Remembered.tell {seen : Seen} {before : List Streamed} (h : Remembered seen before) (row : SourceRow) :
    Remembered (Function.update seen row.source (some row.fingerprint))
      (before ++ [.read row] ++ [.sent (.sourceUpdate (sourceView row))]) where
  memory source := by
    have hreads : reads (before ++ [.read row] ++ [.sent (.sourceUpdate (sourceView row))]) = reads before ++ [row] := by
      rw [reads_append, reads_append]
      exact List.append_nil _
    rw [hreads, lastOf_concat, Function.update_apply, h.memory]
    by_cases heq : row.source = source
    · rw [if_pos heq, if_pos heq.symm]
    · rw [if_neg heq, if_neg (Ne.symm heq)]
  told key := by
    rw [lastSent_update, lastSent_other _ (fun _ hstep => by cases hstep), lastRead_sent, lastRead_read, h.told]

theorem Remembered.other {seen : Seen} {before : List Streamed} (h : Remembered seen before) {event : Event}
    (hevent : ∀ view, event ≠ .sourceUpdate view) : Remembered seen (before ++ [.sent event]) where
  memory source := by
    rw [h.memory, reads_append]
    exact congrArg (fun rows => lastOf SourceRow.source SourceRow.fingerprint rows source) (List.append_nil _).symm
  told key := by
    rw [lastSent_other _ (fun view hstep => hevent view (Streamed.sent.inj hstep)), lastRead_sent, h.told]

/-- A row that is not told: it had not changed exactly where its own last reading is this one. -/
theorem Remembered.reports_quiet {seen : Seen} {before log : List Streamed} (h : Remembered seen before) {row : SourceRow}
    (hhead : log.head? ≠ some (.sent (.sourceUpdate (sourceView row)))) :
    ReportsAfter before (.read row :: log) ↔
      lastRead before row.key = some row.fingerprint ∧ ReportsAfter (before ++ [.read row]) log := by
  rw [reportsAfter_read, h.told]
  exact and_congr_left fun _ => (iff_false_left hhead).trans not_not

theorem Remembered.agree_quiet {seen : Seen} {before : List Streamed} (h : Remembered seen before) {row : SourceRow}
    (hseen : seen row.source = some row.fingerprint) (log : List Streamed) :
    AgreeAfter (reads before) (reads (.read row :: log)) ↔
      lastRead before row.key = some row.fingerprint ∧ AgreeAfter (reads (before ++ [.read row])) (reads log) := by
  rw [agreeAfter_read, ← h.memory]
  exact and_congr_left fun _ => iff_true_left hseen

/-- A row that is told: it changed exactly where its own last reading is another. -/
theorem Remembered.reports_told {seen : Seen} {before : List Streamed} (h : Remembered seen before) (row : SourceRow)
    (log : List Streamed) :
    ReportsAfter before (.read row :: .sent (.sourceUpdate (sourceView row)) :: log) ↔
      lastRead before row.key ≠ some row.fingerprint ∧
        ReportsAfter (before ++ [.read row] ++ [.sent (.sourceUpdate (sourceView row))]) log := by
  rw [reportsAfter_read, reportsAfter_sent, h.told]
  exact and_congr_left fun _ => iff_true_left rfl

theorem Remembered.agree_told {seen : Seen} {before : List Streamed} (h : Remembered seen before) {row : SourceRow}
    (hnew : seen row.source ≠ some row.fingerprint) (event : Event) (log : List Streamed) :
    AgreeAfter (reads before) (reads (.read row :: .sent event :: log)) ↔
      lastRead before row.key ≠ some row.fingerprint ∧
        AgreeAfter (reads (before ++ [.read row] ++ [.sent event])) (reads log) := by
  rw [agreeAfter_read, ← h.memory, reads_sent]
  exact and_congr_left fun _ => iff_false_left hnew

theorem Follows.reports_iff {seen : Seen} {log : List Streamed} (h : Follows seen log) :
    ∀ {before : List Streamed}, Remembered seen before →
      (ReportsAfter before log ↔ AgreeAfter (reads before) (reads log)) ∧
        (ReportsAfter before log → ∀ key, lastSent (before ++ log) key = lastRead (before ++ log) key) := by
  induction h with
  | nil seen =>
    intro before hmem
    refine ⟨⟨fun _ => atEach_nil _, fun _ => atEach_nil _⟩, fun _ key => ?_⟩
    rw [List.append_nil, hmem.told]
  | @quiet seen row log hseen hlog ih =>
    intro before hmem
    rw [hmem.reports_quiet (hlog.head_ne _), hmem.agree_quiet hseen, List.append_cons before _ log]
    constructor
    · exact and_congr_right fun hsame => (ih (hmem.quiet hseen hsame)).1
    · rintro ⟨hsame, hrest⟩
      exact (ih (hmem.quiet hseen hsame)).2 hrest
  | @told seen row log hnew hlog ih =>
    intro before hmem
    have hsplit : before ++ .read row :: .sent (.sourceUpdate (sourceView row)) :: log =
        before ++ [.read row] ++ [.sent (.sourceUpdate (sourceView row))] ++ log := by
      rw [List.append_cons, List.append_cons]
    rw [hmem.reports_told, hmem.agree_told hnew, hsplit]
    exact ⟨and_congr_right fun _ => (ih (hmem.tell row)).1, fun h => (ih (hmem.tell row)).2 h.2⟩
  | @other seen event log hevent hlog ih =>
    intro before hmem
    have hreads : reads (.sent event :: log) = reads log := rfl
    rw [reportsAfter_sent, hreads, ← reads_sent before event, List.append_cons before _ log]
    exact ih (hmem.other hevent)

/-- Every update tells of the row that was just read. -/
def TellsReadings (log : List Streamed) : Prop :=
  AtEach (fun before step _ => ∀ view, step = .sent (.sourceUpdate view) →
    ∃ row, before.getLast? = some (.read row) ∧ view = sourceView row) log

/-- What stands before the first entry is not asked for, where that entry is no update. -/
theorem TellsReadings.cons {step : Streamed} {log : List Streamed}
    (hstep : ∀ view, step ≠ .sent (.sourceUpdate view)) (h : TellsReadings log) : TellsReadings (step :: log) := by
  refine atEach_cons.2 ⟨fun view hview => absurd hview (hstep view), ?_⟩
  intro before step after hl view hview
  obtain ⟨row, hrow, hsame⟩ := h before step after hl view hview
  exact ⟨row, by rw [List.getLast?_cons, hrow]; rfl, hsame⟩

theorem TellsReadings.tell (row : SourceRow) {log : List Streamed} (h : TellsReadings log) :
    TellsReadings (.read row :: .sent (.sourceUpdate (sourceView row)) :: log) := by
  unfold TellsReadings
  rw [atEach_cons, atEach_cons]
  refine ⟨fun view hview => Streamed.noConfusion hview, fun view hview => ?_, ?_⟩
  · exact ⟨row, rfl, (Event.sourceUpdate.inj (Streamed.sent.inj hview)).symm⟩
  · intro before step after hl view hview
    obtain ⟨r, hr, hsame⟩ := h before step after hl view hview
    exact ⟨r, by rw [List.getLast?_cons, List.getLast?_cons, hr]; rfl, hsame⟩

theorem Follows.tellsReadings {seen : Seen} {log : List Streamed} (h : Follows seen log) : TellsReadings log := by
  induction h with
  | nil => exact atEach_nil _
  | quiet _ _ ih => exact ih.cons fun _ hstep => by cases hstep
  | told _ _ ih => exact ih.tell _
  | other hevent _ ih => exact ih.cons fun view hstep => hevent view (Streamed.sent.inj hstep)

theorem reads_report : ∀ (seen : Seen) (rows : List SourceRow), reads (report seen rows).1 = rows
  | _, [] => rfl
  | seen, row :: rows => by
    unfold report
    split
    · exact congrArg (row :: ·) (reads_report _ rows)
    · exact congrArg (row :: ·) (reads_report seen rows)

/-- **The stream comes to the rows of each snapshot up to the one that ends it.** -/
theorem reads_eventsFrom (started : Int) : ∀ (polls : List Poll) (lastBeat : Int) (seen : Seen),
    reads (eventsFrom started lastBeat seen polls) = streamed started polls
  | [], _, _ => rfl
  | poll :: polls, lastBeat, seen => by
    unfold eventsFrom streamed
    cases poll.snapshot with
    | none => rfl
    | some snapshot =>
      have hrows := reads_report seen snapshot.sources
      have ends (event : Event) : reads ((report seen snapshot.sources).1 ++ [.sent event]) = snapshot.sources := by
        rw [reads_append, hrows]
        exact List.append_nil _
      dsimp only
      generalize (if (report seen snapshot.sources).1.any Streamed.isSent then poll.beat else lastBeat) = beat
      by_cases hfinished : snapshot.finished = true
      · rw [if_pos hfinished, if_pos (.inl hfinished), ends]
      · by_cases hlate : poll.now - started > seconds SSE_MAX_SECONDS
        · rw [if_neg hfinished, if_pos hlate, if_pos (.inr hlate), ends]
        · rw [if_neg hfinished, if_neg hlate, if_neg (not_or.2 ⟨hfinished, hlate⟩)]
          split
          · rw [reads_append, hrows]
            exact congrArg _ (reads_eventsFrom started polls _ _)
          · rw [reads_append, hrows, reads_eventsFrom started polls]

/-- **The stream reports each change of a row once, and completes with every row reported, exactly where a row's own last
reading and its source's agree on what is a change.** -/
theorem stream_reports_iff (started : Int) (polls : List Poll) :
    ReportsChanges (events started polls) ↔ SourcesAgree (streamed started polls) := by
  have hfollows := eventsFrom_follows started polls started fun _ => none
  have hmem : Remembered (fun _ => none) [] := ⟨fun _ => rfl, fun _ => rfl⟩
  obtain ⟨hiff, htold⟩ := hfollows.reports_iff hmem
  have hrows : reads (eventsFrom started started (fun _ => none) polls) = streamed started polls :=
    reads_eventsFrom started polls _ _
  rw [hrows] at hiff
  constructor
  · intro h
    exact hiff.1 h.exactly
  · intro h
    have hreports := hiff.2 h
    exact ⟨hreports, hfollows.tellsReadings, fun _ _ _ key => htold hreports key⟩

/-- Two connections of one source, read with the same status and count in the snapshot that ends the stream. -/
def twoMailboxes : List Poll :=
  let row (connectionId : Nat) : SourceRow :=
    { source := "gmail", status := .done, mode := .live, resultCount := 3, connectionId := some connectionId }
  [⟨some ⟨1, true, [row 1, row 2], 6⟩, 0, 0⟩]

/-- The stream completes, and the second connection was never told of. -/
theorem second_mailbox_lost : ¬ ReportsChanges (events 0 twoMailboxes) := by
  intro h
  have hends : Streamed.sent (.searchComplete 1 6) ∈ events 0 twoMailboxes := by decide
  have hlost : lastSent (events 0 twoMailboxes) ("gmail", some 2) ≠
      lastRead (events 0 twoMailboxes) ("gmail", some 2) := by decide
  exact hlost (h.complete 1 6 hends _)

end Search
end SafeSend
