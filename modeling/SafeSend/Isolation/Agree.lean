import SafeSend.Isolation.Confined
import SafeSend.Isolation.Operations
/-!
# Databases that agree on a user

Two databases with the same rows of one user, in the same order, but for the numbers of jobs and resolutions, which the
rows of all users are counted in.  They answer the user's queries alike, and the user's statements leave them agreeing.
-/
namespace SafeSend
namespace Isolation

open Lib
open Send (ConnectionRow)

structure Agree (u : Nat) (a b : Database) : Prop where
  user : a.users.contains u = b.users.contains u
  connections : (a.connections.rows.filter fun r => r.2.userId == u) = b.connections.rows.filter fun r => r.2.userId == u
  searches : (a.searches.filter fun r => r.2.userId == u) = b.searches.filter fun r => r.2.userId == u
  runs : (a.runs.filter fun r => a.ownsSearch u r.2.searchId) = b.runs.filter fun r => b.ownsSearch u r.2.searchId
  results : (a.results.filter fun r => a.ownsSearch u r.2.searchId) =
    b.results.filter fun r => b.ownsSearch u r.2.searchId
  drafts : (a.drafts.filter fun r => r.2.userId == u) = b.drafts.filter fun r => r.2.userId == u
  sends : (a.sends.filter fun r => r.2.userId == u) = b.sends.filter fun r => r.2.userId == u
  jobs : Keyed.Alike (a.jobs.rows.filter fun r => a.ownsJob u r.2) (b.jobs.rows.filter fun r => b.ownsJob u r.2)
  resolutions : Keyed.Alike (a.resolutions.rows.filter fun r => a.ownsSend u r.2.sendId)
    (b.resolutions.rows.filter fun r => b.ownsSend u r.2.sendId)
  /-- The same uuids are drawn. -/
  uuids : a.uuids = b.uuids
  drawn : a.drawn = b.drawn

variable {u id : Nat} {a b : Database}

theorem second {p q : Bool} (h : (p && q) = true) : q = true := (Bool.and_eq_true_iff.1 h).2

namespace Agree

open Database

/-! ## Owners -/

theorem ownsSearch (h : Agree u a b) : a.ownsSearch u = b.ownsSearch u := by
  funext id
  exact Keyed.any_congr (fun _ _ => second) (fun _ _ => second) h.searches

theorem ownsSend (h : Agree u a b) : a.ownsSend u = b.ownsSend u := by
  funext id
  exact Keyed.any_congr (fun _ _ => second) (fun _ _ => second) h.sends

theorem ownsRun (h : Agree u a b) : a.ownsRun u = b.ownsRun u := by
  funext id
  have hruns := h.runs
  unfold Database.ownsRun
  rw [← h.ownsSearch] at hruns ⊢
  exact Keyed.any_congr (fun _ _ => second) (fun _ _ => second) hruns

theorem ownsJob (h : Agree u a b) : a.ownsJob u = b.ownsJob u := by
  funext j
  unfold Database.ownsJob
  rw [h.ownsRun, h.ownsSend]

/-! ## Queries -/

theorem draftOf (h : Agree u a b) (id : Nat) : a.draftOf u id = b.draftOf u id :=
  congrArg (Option.map Prod.snd) (Keyed.find?_congr (fun _ _ => second) (fun _ _ => second) h.drafts)

theorem send? (h : Agree u a b) (id : Nat) : (a.sends.find? fun r => r.1 == id && r.2.userId == u) =
    b.sends.find? fun r => r.1 == id && r.2.userId == u :=
  Keyed.find?_congr (fun _ _ => second) (fun _ _ => second) h.sends

theorem sendOf (h : Agree u a b) (id : Nat) : a.sendOf u id = b.sendOf u id := congrArg (Option.map Prod.snd) (h.send? id)

theorem sendByKey (h : Agree u a b) (key : String) : a.sendByKey u key = b.sendByKey u key :=
  Keyed.find?_congr (fun _ _ hp => (Bool.and_eq_true_iff.1 hp).1) (fun _ _ hp => (Bool.and_eq_true_iff.1 hp).1) h.sends

theorem searchOf (h : Agree u a b) (id : Nat) : a.searchOf u id = b.searchOf u id :=
  congrArg (Option.map Prod.snd) (Keyed.find?_congr (fun _ _ => second) (fun _ _ => second) h.searches)

/-- A connection of the user is there in both. -/
theorem connection (h : Agree u a b) {n : Nat} {c : ConnectionRow} (hc : a.connections.get n = some c) (hu : c.userId = u) :
    b.connections.get n = some c :=
  Table.mem_rows.1 (Keyed.mem_of_own h.connections (Table.mem_rows.2 hc) (beq_iff_eq.2 hu))

theorem draft (h : Agree u a b) {d : Nat × DraftRow} (hd : d ∈ a.drafts) (hu : d.2.userId = u) : d ∈ b.drafts :=
  Keyed.mem_of_own h.drafts hd (beq_iff_eq.2 hu)

theorem firstConnection (h : Agree u a b) (provider : ProviderKind) (activeOnly : Bool) :
    a.firstConnection u provider activeOnly = b.firstConnection u provider activeOnly := by
  have hp (r : Nat × ConnectionRow)
      (he : (r.2.userId == u && r.2.provider == provider && (!activeOnly || r.2.status == .active)) = true) :
      (r.2.userId == u) = true := (Bool.and_eq_true_iff.1 (Bool.and_eq_true_iff.1 he).1).1
  exact Keyed.find?_congr (fun r _ => hp r) (fun r _ => hp r) h.connections

theorem fanOut (h : Agree u a b) (chosen : List (String × Search.Registration)) : a.fanOut u chosen = b.fanOut u chosen := by
  have hactive (source : String) : Search.activeConnections { connections := a.connections } u source =
      Search.activeConnections { connections := b.connections } u source := by
    have hp (r : Nat × ConnectionRow)
        (he : (r.2.userId == u && r.2.status == .active && r.2.provider.value == source) = true) :
        (r.2.userId == u) = true := (Bool.and_eq_true_iff.1 (Bool.and_eq_true_iff.1 he).1).1
    exact congrArg (List.map Prod.fst) (Keyed.filter_congr (fun r _ => hp r) (fun r _ => hp r) h.connections)
  unfold Database.fanOut Search.Store.fanOut Search.connectionsFor
  simp only [hactive]

theorem latestJob (h : Agree u a b) (hs : a.ownsSend u id = true) :
    (a.jobs.latest fun _ j => j.kind == .send && j.refId == id).map Prod.snd =
      (b.jobs.latest fun _ j => j.kind == .send && j.refId == id).map Prod.snd := by
  have hp (r : Nat × Queue.JobRow) (he : (r.2.kind == .send && r.2.refId == id) = true) : a.ownsJob u r.2 = true := by
    obtain ⟨hkind, href⟩ := Bool.and_eq_true_iff.1 he
    unfold Database.ownsJob
    rw [beq_iff_eq.1 hkind, beq_iff_eq.1 href]
    exact hs
  have hjobs := h.jobs
  rw [← h.ownsJob] at hjobs
  unfold Table.latest
  rw [Keyed.filter_own (fun r => a.ownsJob u r.2) fun r _ => hp r,
    Keyed.filter_own (t := b.jobs.rows) (fun r => a.ownsJob u r.2) fun r _ => hp r]
  exact (hjobs.filter fun j => j.kind == .send && j.refId == id).getLast?

theorem resolutionOf (h : Agree u a b) (hs : a.ownsSend u id = true) : a.resolutionOf id = b.resolutionOf id := by
  have hp (r : Nat × ResolutionRow) (he : (r.2.sendId == id) = true) : a.ownsSend u r.2.sendId = true := by
    rw [beq_iff_eq.1 he]
    exact hs
  have hresolutions := h.resolutions
  rw [← h.ownsSend] at hresolutions
  have hlast : (a.resolutions.latest fun _ r => r.sendId == id).map Prod.snd =
      (b.resolutions.latest fun _ r => r.sendId == id).map Prod.snd := by
    unfold Table.latest
    rw [Keyed.filter_own (fun r => a.ownsSend u r.2.sendId) fun r _ => hp r,
      Keyed.filter_own (t := b.resolutions.rows) (fun r => a.ownsSend u r.2.sendId) fun r _ => hp r]
    exact (hresolutions.filter fun r => r.sendId == id).getLast?
  have hview (db : Database) : db.resolutionOf id =
      ((db.resolutions.latest fun _ r => r.sendId == id).map Prod.snd).map fun r => (r.resolution, r.note, r.createdAt) := by
    rw [Option.map_map]
    rfl
  rw [hview a, hview b, hlast]

/-- **What a send is joined with is its user's**, and is there in both. -/
theorem joined (h : Agree u a b) (ha : a.Sound) (hb : b.Sound) {r : Nat × SendRow} (hr : r ∈ a.sends)
    (hu : r.2.userId = u) : a.joined r = b.joined r := by
  obtain ⟨d, hd, hdu⟩ := ha.sendDraft r hr
  obtain ⟨c, hc, hcu⟩ := ha.sendConnection r hr
  have hs : a.ownsSend u r.1 = true := ownsSend_iff.2 ⟨r.2, hr, hu⟩
  have hd' : (r.2.draftId, d) ∈ b.drafts := h.draft hd (hdu.trans hu)
  have hc' : b.connections.get r.2.connectionId = some c := h.connection hc (hcu.trans hu)
  unfold Database.joined
  rw [Keyed.find?_key ha.draftKeys hd, Keyed.find?_key hb.draftKeys hd', hc, hc']
  exact congrArg (fun job => some (JoinedSend.mk r.1 r.2 d c job)) (h.latestJob hs)

theorem detailOf (h : Agree u a b) (ha : a.Sound) (hb : b.Sound) (id : Nat) :
    (a.sends.find? fun r => r.1 == id && r.2.userId == u).bind a.joined =
      (b.sends.find? fun r => r.1 == id && r.2.userId == u).bind b.joined := by
  rw [← h.send? id]
  cases hr : a.sends.find? fun r => r.1 == id && r.2.userId == u with
  | none => rfl
  | some r =>
    have hp := List.find?_some (p := fun r : Nat × SendRow => r.1 == id && r.2.userId == u) hr
    exact h.joined ha hb (List.mem_of_find?_eq_some hr) (beq_iff_eq.1 (second hp))

theorem listed (h : Agree u a b) (ha : a.Sound) (hb : b.Sound) (limit : Nat) (includeSeed : Bool)
    (before : Option (Nat × Nat)) : a.listed u limit includeSeed before = b.listed u limit includeSeed before := by
  unfold Database.listed
  rw [← Keyed.filter_congr (s := a.sends) (t := b.sends) (fun _ _ hp => (Bool.and_eq_true_iff.1 hp).1)
    (fun _ _ hp => (Bool.and_eq_true_iff.1 hp).1) h.sends]
  congr 2
  refine List.filterMap_congr fun r hr => ?_
  obtain ⟨hr, hp⟩ := List.mem_filter.1 hr
  exact h.joined ha hb hr (beq_iff_eq.1 (Bool.and_eq_true_iff.1 hp).1)

theorem sourcesOf (h : Agree u a b) (ha : a.Sound) (A : Around) (hs : a.ownsSearch u id = true) :
    a.sourcesOf A id = b.sourcesOf A id := by
  have hruns := h.runs
  rw [← h.ownsSearch] at hruns
  have hp (r : Nat × Search.AdapterRunRow) (he : (r.2.searchId == id) = true) : a.ownsSearch u r.2.searchId = true := by
    rw [beq_iff_eq.1 he]
    exact hs
  unfold Database.sourcesOf
  rw [← Keyed.filter_congr (s := a.runs) (t := b.runs) (fun r _ => hp r) (fun r _ => hp r) hruns]
  refine List.map_congr_left fun r hr => ?_
  obtain ⟨⟨n, r'⟩, hr', rfl⟩ := List.mem_map.1 (List.mem_mergeSort.1 hr)
  obtain ⟨hmem, he⟩ := List.mem_filter.1 hr'
  have hname : (r'.connectionId.bind fun c => (a.connections.get c).map (·.displayName)) =
      r'.connectionId.bind fun c => (b.connections.get c).map (·.displayName) := by
    cases hn : r'.connectionId with
    | none => rfl
    | some n' =>
      obtain ⟨c, hc, hown⟩ := ha.runConnection (n, r') hmem n' hn
      have hu : c.userId = u := by
        obtain ⟨s, hs₁, hu₁⟩ := ownsSearch_iff.1 hown
        obtain ⟨s', hs₂, hu₂⟩ := ownsSearch_iff.1 (hp (n, r') he)
        have hsame := Keyed.eq_of_key ha.searchKeys hs₁ hs₂ rfl
        exact hu₁.symm.trans ((congrArg (fun r : Nat × SearchRow => r.2.userId) hsame).trans hu₂)
      show (a.connections.get n').map _ = (b.connections.get n').map _
      rw [hc, h.connection hc hu]
  show SourceStatus.mk _ _ _ _ _ _ _ _ = SourceStatus.mk _ _ _ _ _ _ _ _
  rw [hname]

theorem resultsOf (h : Agree u a b) (hs : a.ownsSearch u id = true) : a.resultsOf id = b.resultsOf id := by
  have hresults := h.results
  rw [← h.ownsSearch] at hresults
  have hp (r : Nat × Search.ResultRow) (he : (r.2.searchId == id) = true) : a.ownsSearch u r.2.searchId = true := by
    rw [beq_iff_eq.1 he]
    exact hs
  exact congrArg (List.map Prod.snd) (Keyed.filter_congr (fun r _ => hp r) (fun r _ => hp r) hresults)

/-! ## Statements -/

theorem draw (h : Agree u a b) : Agree u { a with drawn := a.drawn + 1 } { b with drawn := b.drawn + 1 } :=
  { h with drawn := congrArg (· + 1) h.drawn }

theorem filter_append_congr {α : Type} {p : α → Bool} {s t : List α} (h : s.filter p = t.filter p) (x : α) :
    (s ++ [x]).filter p = (t ++ [x]).filter p := by
  rw [List.filter_append, List.filter_append, h]

theorem insertDraft (h : Agree u a b) (id : Nat) (row : DraftRow) :
    Agree u { a with drafts := a.drafts ++ [(id, row)] } { b with drafts := b.drafts ++ [(id, row)] } :=
  { h with drafts := filter_append_congr h.drafts (id, row) }

theorem updateDraft (h : Agree u a b) (id : Nat) (e : Send.DraftEdit) :
    Agree u (a.updateDraft u id e) (b.updateDraft u id e) :=
  { h with
    drafts := by
      have hp (r : Nat × DraftRow) (he : (r.1 == id && r.2.userId == u) = true) :
          (r.2.userId == u) = true ∧ ((DraftRow.edited e r.2).userId == u) = true := ⟨second he, second he⟩
      show (Keyed.alter _ _ a.drafts).filter _ = (Keyed.alter _ _ b.drafts).filter _
      rw [Keyed.filter_alter fun r _ => hp r, Keyed.filter_alter fun r _ => hp r, h.drafts] }

theorem insertSend (h : Agree u a b) (ha : a.Sound) (hb : b.Sound) (hida : a.Unused id) (hidb : b.Unused id)
    (row : SendRow) :
    Agree u { a with sends := a.sends ++ [(id, row)] } { b with sends := b.sends ++ [(id, row)] } :=
  { h with
    sends := filter_append_congr h.sends (id, row)
    jobs := h.jobs.of_eq (List.filter_congr fun _ hr => ownsJob_insertSend row u (hida.refId_ne hr))
      (List.filter_congr fun _ hr => ownsJob_insertSend row u (hidb.refId_ne hr))
    resolutions := h.resolutions.of_eq (List.filter_congr fun _ hr => ownsSend_insert row (ha.sendId_ne hida hr))
      (List.filter_congr fun _ hr => ownsSend_insert row (hb.sendId_ne hidb hr)) }

theorem updateSend (h : Agree u a b) (id : Nat) (guard : Send.SendRow → Bool) {f : Send.SendRow → Send.SendRow}
    (hf : Settles f) : Agree u (a.updateSend u id guard f) (b.updateSend u id guard f) :=
  { h with
    sends := by
      have hp (r : Nat × SendRow) (he : (r.1 == id && r.2.userId == u && guard r.2.toSendRow) = true) :
          (r.2.userId == u) = true ∧ ((SendRow.settled f r.2).userId == u) = true := by
        have hu : (r.2.userId == u) = true := second (Bool.and_eq_true_iff.1 he).1
        exact ⟨hu, by rw [show (SendRow.settled f r.2).userId = r.2.userId from (hf r.2.toSendRow).1]; exact hu⟩
      show (Keyed.alter _ _ a.sends).filter _ = (Keyed.alter _ _ b.sends).filter _
      rw [Keyed.filter_alter fun r _ => hp r, Keyed.filter_alter fun r _ => hp r, h.sends]
    jobs := h.jobs.of_eq (List.filter_congr fun r _ => ownsJob_updateSend hf u r.2)
      (List.filter_congr fun r _ => ownsJob_updateSend hf u r.2)
    resolutions := h.resolutions.of_eq (List.filter_congr fun r _ => ownsSend_updateSend hf u r.2.sendId)
      (List.filter_congr fun r _ => ownsSend_updateSend hf u r.2.sendId) }

theorem onJobs (h : Agree u a b) {ja jb : Queue.Jobs}
    (hj : Keyed.Alike (ja.rows.filter fun r => a.ownsJob u r.2) (jb.rows.filter fun r => b.ownsJob u r.2)) :
    Agree u { a with jobs := ja } { b with jobs := jb } :=
  { h with jobs := hj }

theorem insertResolution (h : Agree u a b) {row : ResolutionRow} (hs : a.ownsSend u row.sendId = true) :
    Agree u { a with resolutions := a.resolutions.insert row } { b with resolutions := b.resolutions.insert row } :=
  { h with
    resolutions := by
      have happend (db : Database) (hdb : db.ownsSend u row.sendId = true) :
          ((db.resolutions.insert row).rows.filter fun r => db.ownsSend u r.2.sendId) =
            (db.resolutions.rows.filter fun r => db.ownsSend u r.2.sendId) ++ [(db.resolutions.next, row)] := by
        rw [Table.rows_insert, List.filter_append]
        exact congrArg (_ ++ ·) (List.filter_cons_of_pos (p := fun r : Nat × ResolutionRow => db.ownsSend u r.2.sendId) hdb)
      exact (h.resolutions.append _ _ row).of_eq (happend a hs) (happend b (h.ownsSend ▸ hs)) }

theorem insertSearch (h : Agree u a b) (ha : a.Sound) (hb : b.Sound) (hida : a.Unused id) (hidb : b.Unused id)
    (row : SearchRow) :
    Agree u { a with searches := a.searches ++ [(id, row)] } { b with searches := b.searches ++ [(id, row)] } :=
  { h with
    searches := filter_append_congr h.searches (id, row)
    runs := (List.filter_congr fun _ hr => ownsSearch_insert row (ha.searchId_ne hida hr)).trans
      (h.runs.trans (List.filter_congr fun _ hr => ownsSearch_insert row (hb.searchId_ne hidb hr)).symm)
    results := (List.filter_congr fun _ hr => ownsSearch_insert row (ha.result_searchId_ne hida hr)).trans
      (h.results.trans (List.filter_congr fun _ hr => ownsSearch_insert row (hb.result_searchId_ne hidb hr)).symm)
    jobs := h.jobs.of_eq (List.filter_congr fun r _ => ha.ownsJob_insertSearch hida row u r.2)
      (List.filter_congr fun r _ => hb.ownsJob_insertSearch hidb row u r.2) }

theorem insertRun (h : Agree u a b) (hida : a.Unused id) (hidb : b.Unused id) (row : Search.AdapterRunRow) :
    Agree u { a with runs := a.runs ++ [(id, row)] } { b with runs := b.runs ++ [(id, row)] } :=
  { h with
    runs := by
      have hruns := h.runs
      rw [← h.ownsSearch] at hruns
      show (a.runs ++ [(id, row)]).filter (fun r => a.ownsSearch u r.2.searchId) =
        (b.runs ++ [(id, row)]).filter fun r => b.ownsSearch u r.2.searchId
      rw [← h.ownsSearch]
      exact filter_append_congr hruns (id, row)
    jobs := h.jobs.of_eq (List.filter_congr fun _ hr => ownsJob_insertRun row u (hida.refId_ne hr))
      (List.filter_congr fun _ hr => ownsJob_insertRun row u (hidb.refId_ne hr)) }

end Agree
end Isolation
end SafeSend
