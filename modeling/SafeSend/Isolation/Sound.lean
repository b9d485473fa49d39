import Mathlib.Logic.Function.Basic
import SafeSend.Isolation.Database
/-!
# Sound databases

Ids are keys, what a row of one user refers to is that user's, a job's dedupe key names its reference, and no uuid is
drawn twice.  Every statement of the service keeps this, given of a row it writes what the service has read before.  The
result a draft replies to is not looked up, and may be anybody's.
-/
namespace SafeSend
namespace Isolation

open Lib
open Send (ConnectionRow)

/-- `send:{id}` and `adapter_run:{id}`. -/
def keyOf (kind : JobKind) (id : Nat) : String := kind.value ++ ":" ++ toString id

namespace Database

/-- Nothing has the id, and no job refers to it. -/
structure Unused (db : Database) (id : Nat) : Prop where
  searches : ∀ r ∈ db.searches, r.1 ≠ id
  runs : ∀ r ∈ db.runs, r.1 ≠ id
  drafts : ∀ r ∈ db.drafts, r.1 ≠ id
  sends : ∀ r ∈ db.sends, r.1 ≠ id
  jobs : ∀ n j, db.jobs.get n = some j → j.refId ≠ id

/-- The id was drawn, and nothing was done with it yet. -/
structure Drawn (db : Database) (id : Nat) : Prop where
  unused : db.Unused id
  past : ∀ k, db.drawn ≤ k → db.uuids k ≠ id

structure Sound (db : Database) : Prop where
  searchKeys : (db.searches.map Prod.fst).Nodup
  runKeys : (db.runs.map Prod.fst).Nodup
  draftKeys : (db.drafts.map Prod.fst).Nodup
  sendKeys : (db.sends.map Prod.fst).Nodup
  draftConnection : ∀ r ∈ db.drafts, ∃ c, db.connections.get r.2.connectionId = some c ∧ c.userId = r.2.userId
  sendDraft : ∀ r ∈ db.sends, ∃ d, (r.2.draftId, d) ∈ db.drafts ∧ d.userId = r.2.userId
  sendConnection : ∀ r ∈ db.sends, ∃ c, db.connections.get r.2.connectionId = some c ∧ c.userId = r.2.userId
  runSearch : ∀ r ∈ db.runs, ∃ s, (r.2.searchId, s) ∈ db.searches
  runConnection : ∀ r ∈ db.runs, ∀ n ∈ r.2.connectionId,
    ∃ c, db.connections.get n = some c ∧ db.ownsSearch c.userId r.2.searchId = true
  resultRun : ∀ r ∈ db.results, ∃ run, (r.2.adapterRunId, run) ∈ db.runs ∧ run.searchId = r.2.searchId
  resolutionSend : ∀ n r, db.resolutions.get n = some r → ∃ s, (r.sendId, s) ∈ db.sends ∧ s.userId = r.userId
  jobKey : ∀ n j, db.jobs.get n = some j → ∀ k ∈ j.dedupeKey, k = keyOf j.kind j.refId
  unused : ∀ k, db.drawn ≤ k → db.Unused (db.uuids k)
  distinct : Function.Injective db.uuids

variable {db : Database} {u id : Nat}

theorem ownsSearch_iff : db.ownsSearch u id = true ↔ ∃ s, (id, s) ∈ db.searches ∧ s.userId = u := by
  unfold ownsSearch
  rw [List.any_eq_true]
  constructor
  · rintro ⟨⟨n, s⟩, hs, he⟩
    obtain ⟨hn, hu⟩ := Bool.and_eq_true_iff.1 he
    exact ⟨s, (beq_iff_eq.1 hn) ▸ hs, beq_iff_eq.1 hu⟩
  · rintro ⟨s, hs, hu⟩
    exact ⟨(id, s), hs, by rw [hu, beq_self_eq_true, beq_self_eq_true]; rfl⟩

theorem ownsSend_iff : db.ownsSend u id = true ↔ ∃ s, (id, s) ∈ db.sends ∧ s.userId = u := by
  unfold ownsSend
  rw [List.any_eq_true]
  constructor
  · rintro ⟨⟨n, s⟩, hs, he⟩
    obtain ⟨hn, hu⟩ := Bool.and_eq_true_iff.1 he
    exact ⟨s, (beq_iff_eq.1 hn) ▸ hs, beq_iff_eq.1 hu⟩
  · rintro ⟨s, hs, hu⟩
    exact ⟨(id, s), hs, by rw [hu, beq_self_eq_true, beq_self_eq_true]; rfl⟩

theorem ownsRun_iff :
    db.ownsRun u id = true ↔ ∃ r, (id, r) ∈ db.runs ∧ db.ownsSearch u r.searchId = true := by
  unfold ownsRun
  rw [List.any_eq_true]
  constructor
  · rintro ⟨⟨n, r⟩, hr, he⟩
    obtain ⟨hn, hu⟩ := Bool.and_eq_true_iff.1 he
    exact ⟨r, (beq_iff_eq.1 hn) ▸ hr, hu⟩
  · rintro ⟨r, hr, hu⟩
    exact ⟨(id, r), hr, by rw [hu, beq_self_eq_true]; rfl⟩

/-! ## Draws -/

theorem Sound.drawn (h : db.Sound) : Drawn { db with drawn := db.drawn + 1 } (db.uuids db.drawn) where
  unused := { h.unused db.drawn (Nat.le_refl _) with }
  past k hk he := by
    have : k = db.drawn := h.distinct he
    exact Nat.not_succ_le_self _ (this ▸ hk)

theorem Sound.draw (h : db.Sound) : Sound { db with drawn := db.drawn + 1 } :=
  { h with unused := fun k hk => { h.unused k (Nat.le_of_succ_le hk) with } }

/-! ## Statements -/

theorem Sound.insertDraft (h : db.Sound) (hid : db.Drawn id) {row : DraftRow} {c : ConnectionRow}
    (hc : db.connections.get row.connectionId = some c) (hu : c.userId = row.userId) :
    Sound { db with drafts := db.drafts ++ [(id, row)] } :=
  { h with
    draftKeys := Keyed.nodup_append h.draftKeys hid.unused.drafts
    draftConnection := by
      intro r hr
      rcases List.mem_append.1 hr with hr | hr
      · exact h.draftConnection r hr
      · rw [List.mem_singleton.1 hr]
        exact ⟨c, hc, hu⟩
    sendDraft := fun r hr => by
      obtain ⟨d, hd, hdu⟩ := h.sendDraft r hr
      exact ⟨d, List.mem_append_left _ hd, hdu⟩
    unused := fun k hk =>
      { h.unused k hk with
        drafts := by
          intro r hr
          rcases List.mem_append.1 hr with hr | hr
          · exact (h.unused k hk).drafts r hr
          · rw [List.mem_singleton.1 hr]
            exact fun he => hid.past k hk he.symm } }

theorem Sound.updateDraft (h : db.Sound) (u id : Nat) (e : Send.DraftEdit) : (db.updateDraft u id e).Sound :=
  { h with
    draftKeys := by
      show ((Keyed.alter _ _ db.drafts).map Prod.fst).Nodup
      rw [Keyed.keys_alter]
      exact h.draftKeys
    draftConnection := by
      intro r hr
      rcases Keyed.mem_alter_cases hr with hr | ⟨r₀, hr₀, -, -, he⟩
      · exact h.draftConnection r hr
      · rw [he]
        exact h.draftConnection r₀ hr₀
    sendDraft := fun r hr => by
      obtain ⟨d, hd, hdu⟩ := h.sendDraft r hr
      cases hp : (r.2.draftId == id && d.userId == u) with
      | false => exact ⟨d, Keyed.mem_alter.2 ⟨_, hd, by rw [hp]; rfl⟩, hdu⟩
      | true => exact ⟨d.edited e, Keyed.mem_alter.2 ⟨_, hd, by rw [hp]; rfl⟩, hdu⟩
    unused := fun k hk =>
      { h.unused k hk with
        drafts := by
          intro r hr
          rcases Keyed.mem_alter_cases hr with hr | ⟨r₀, hr₀, -, he, -⟩
          · exact (h.unused k hk).drafts r hr
          · rw [he]
            exact (h.unused k hk).drafts r₀ hr₀ } }

theorem Sound.insertSend (h : db.Sound) (hid : db.Drawn id) {row : SendRow} {d : DraftRow} {c : ConnectionRow}
    (hd : (row.draftId, d) ∈ db.drafts) (hdu : d.userId = row.userId)
    (hc : db.connections.get row.connectionId = some c) (hcu : c.userId = row.userId) :
    Sound { db with sends := db.sends ++ [(id, row)] } :=
  { h with
    sendKeys := Keyed.nodup_append h.sendKeys hid.unused.sends
    sendDraft := by
      intro r hr
      rcases List.mem_append.1 hr with hr | hr
      · exact h.sendDraft r hr
      · rw [List.mem_singleton.1 hr]
        exact ⟨d, hd, hdu⟩
    sendConnection := by
      intro r hr
      rcases List.mem_append.1 hr with hr | hr
      · exact h.sendConnection r hr
      · rw [List.mem_singleton.1 hr]
        exact ⟨c, hc, hcu⟩
    resolutionSend := fun n r hr => by
      obtain ⟨s, hs, hsu⟩ := h.resolutionSend n r hr
      exact ⟨s, List.mem_append_left _ hs, hsu⟩
    unused := fun k hk =>
      { h.unused k hk with
        sends := by
          intro r hr
          rcases List.mem_append.1 hr with hr | hr
          · exact (h.unused k hk).sends r hr
          · rw [List.mem_singleton.1 hr]
            exact fun he => hid.past k hk he.symm } }

/-- What a write to a send leaves: whose it is, of which draft and through which connection. -/
def Settles (f : Send.SendRow → Send.SendRow) : Prop :=
  ∀ s, (f s).userId = s.userId ∧ (f s).draftId = s.draftId ∧ (f s).connectionId = s.connectionId

theorem Sound.updateSend (h : db.Sound) (u id : Nat) (guard : Send.SendRow → Bool) {f : Send.SendRow → Send.SendRow}
    (hf : Settles f) : (db.updateSend u id guard f).Sound :=
  { h with
    sendKeys := by
      show ((Keyed.alter _ _ db.sends).map Prod.fst).Nodup
      rw [Keyed.keys_alter]
      exact h.sendKeys
    sendDraft := by
      intro r hr
      rcases Keyed.mem_alter_cases hr with hr | ⟨r₀, hr₀, -, -, he⟩
      · exact h.sendDraft r hr
      · obtain ⟨hu, hd, -⟩ := hf r₀.2.toSendRow
        rw [he]
        show ∃ d, ((f r₀.2.toSendRow).draftId, d) ∈ db.drafts ∧ d.userId = (f r₀.2.toSendRow).userId
        rw [hu, hd]
        exact h.sendDraft r₀ hr₀
    sendConnection := by
      intro r hr
      rcases Keyed.mem_alter_cases hr with hr | ⟨r₀, hr₀, -, -, he⟩
      · exact h.sendConnection r hr
      · obtain ⟨hu, -, hc⟩ := hf r₀.2.toSendRow
        rw [he]
        show ∃ c, db.connections.get (f r₀.2.toSendRow).connectionId = some c ∧ c.userId = (f r₀.2.toSendRow).userId
        rw [hu, hc]
        exact h.sendConnection r₀ hr₀
    resolutionSend := fun n r hr => by
      obtain ⟨s, hs, hsu⟩ := h.resolutionSend n r hr
      cases hp : (r.sendId == id && s.userId == u && guard s.toSendRow) with
      | false => exact ⟨s, Keyed.mem_alter.2 ⟨_, hs, by rw [hp]; rfl⟩, hsu⟩
      | true => exact ⟨_, Keyed.mem_alter.2 ⟨_, hs, by rw [hp]; rfl⟩, (hf s.toSendRow).1.trans hsu⟩
    unused := fun k hk =>
      { h.unused k hk with
        sends := by
          intro r hr
          rcases Keyed.mem_alter_cases hr with hr | ⟨r₀, hr₀, -, he, -⟩
          · exact (h.unused k hk).sends r hr
          · rw [he]
            exact (h.unused k hk).sends r₀ hr₀ } }

theorem Sound.insertResolution (h : db.Sound) {row : ResolutionRow} {s : SendRow} (hs : (row.sendId, s) ∈ db.sends)
    (hu : s.userId = row.userId) : Sound { db with resolutions := db.resolutions.insert row } :=
  { h with
    resolutionSend := by
      intro n r hr
      rcases Table.get_insert_cases hr with ⟨-, rfl⟩ | ⟨-, hr⟩
      · exact ⟨s, hs, hu⟩
      · exact h.resolutionSend n r hr
    unused := fun k hk => { h.unused k hk with } }

theorem Sound.insertSearch (h : db.Sound) (hid : db.Drawn id) (row : SearchRow) :
    Sound { db with searches := db.searches ++ [(id, row)] } :=
  { h with
    searchKeys := Keyed.nodup_append h.searchKeys hid.unused.searches
    runSearch := fun r hr => by
      obtain ⟨s, hs⟩ := h.runSearch r hr
      exact ⟨s, List.mem_append_left _ hs⟩
    runConnection := fun r hr n hn => by
      obtain ⟨c, hc, hu⟩ := h.runConnection r hr n hn
      obtain ⟨s, hs, hsu⟩ := ownsSearch_iff.1 hu
      exact ⟨c, hc, ownsSearch_iff.2 ⟨s, List.mem_append_left _ hs, hsu⟩⟩
    unused := fun k hk =>
      { h.unused k hk with
        searches := by
          intro r hr
          rcases List.mem_append.1 hr with hr | hr
          · exact (h.unused k hk).searches r hr
          · rw [List.mem_singleton.1 hr]
            exact fun he => hid.past k hk he.symm } }

theorem Sound.insertRun (h : db.Sound) (hid : db.Drawn id) {row : Search.AdapterRunRow} {s : SearchRow}
    (hs : (row.searchId, s) ∈ db.searches)
    (hc : ∀ n ∈ row.connectionId, ∃ c, db.connections.get n = some c ∧ c.userId = s.userId) :
    Sound { db with runs := db.runs ++ [(id, row)] } :=
  { h with
    runKeys := Keyed.nodup_append h.runKeys hid.unused.runs
    runSearch := by
      intro r hr
      rcases List.mem_append.1 hr with hr | hr
      · exact h.runSearch r hr
      · rw [List.mem_singleton.1 hr]
        exact ⟨s, hs⟩
    runConnection := by
      intro r hr n hn
      rcases List.mem_append.1 hr with hr | hr
      · exact h.runConnection r hr n hn
      · rw [List.mem_singleton.1 hr] at hn ⊢
        obtain ⟨c, hget, hu⟩ := hc n hn
        exact ⟨c, hget, ownsSearch_iff.2 ⟨s, hs, hu.symm⟩⟩
    resultRun := fun r hr => by
      obtain ⟨run, hrun, he⟩ := h.resultRun r hr
      exact ⟨run, List.mem_append_left _ hrun, he⟩
    unused := fun k hk =>
      { h.unused k hk with
        runs := by
          intro r hr
          rcases List.mem_append.1 hr with hr | hr
          · exact (h.unused k hk).runs r hr
          · rw [List.mem_singleton.1 hr]
            exact fun he => hid.past k hk he.symm } }

/-- The jobs after a statement: each has the key of its reference, and that is none still to be drawn. -/
theorem Sound.onJobs (h : db.Sound) {jobs : Queue.Jobs}
    (hkey : ∀ n j, jobs.get n = some j → ∀ k ∈ j.dedupeKey, k = keyOf j.kind j.refId)
    (href : ∀ n j, jobs.get n = some j → ∀ k, db.drawn ≤ k → db.uuids k ≠ j.refId) : Sound { db with jobs := jobs } :=
  { h with
    jobKey := hkey
    unused := fun k hk => { h.unused k hk with jobs := fun n j hj he => href n j hj k hk he.symm } }

end Database
end Isolation
end SafeSend
