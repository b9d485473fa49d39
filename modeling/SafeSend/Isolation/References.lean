import SafeSend.Isolation.Confined
import SafeSend.Lib.Deletion
/-!
# What refers to other users' rows

The foreign keys of the schema, over the rows of a database.  A user's confined change refers to no further row of
another user, and keeps none from being deleted: whatever cascades from another user's row is another user's.
-/
namespace SafeSend
namespace Isolation

open Lib

inductive RowKey
  | user (id : Nat)
  | connection (id : Nat)
  | search (id : Nat)
  | run (id : Nat)
  | result (id : Nat)
  | draft (id : Nat)
  | send (id : Nat)
  | resolution (id : Nat)
  deriving DecidableEq, Repr

namespace Database

/-- `ON DELETE CASCADE`. -/
inductive Cascades (db : Database) : RowKey → RowKey → Prop
  | connectionUser {n c} : db.connections.get n = some c → db.Cascades (.connection n) (.user c.userId)
  | searchUser {n s} : (n, s) ∈ db.searches → db.Cascades (.search n) (.user s.userId)
  | runSearch {n r} : (n, r) ∈ db.runs → db.Cascades (.run n) (.search r.searchId)
  | resultSearch {n r} : (n, r) ∈ db.results → db.Cascades (.result n) (.search r.searchId)
  | resultRun {n r} : (n, r) ∈ db.results → db.Cascades (.result n) (.run r.adapterRunId)
  | draftUser {n d} : (n, d) ∈ db.drafts → db.Cascades (.draft n) (.user d.userId)
  | sendUser {n s} : (n, s) ∈ db.sends → db.Cascades (.send n) (.user s.userId)
  | resolutionSend {n r} : db.resolutions.get n = some r → db.Cascades (.resolution n) (.send r.sendId)

/-- A reference without `ON DELETE`. -/
inductive Forbids (db : Database) : RowKey → RowKey → Prop
  | runConnection {n r c} : (n, r) ∈ db.runs → c ∈ r.connectionId → db.Forbids (.run n) (.connection c)
  | draftConnection {n d} : (n, d) ∈ db.drafts → db.Forbids (.draft n) (.connection d.connectionId)
  | draftReply {n d k} : (n, d) ∈ db.drafts → k ∈ d.inReplyToResultId → db.Forbids (.draft n) (.result k)
  | sendDraft {n s} : (n, s) ∈ db.sends → db.Forbids (.send n) (.draft s.draftId)
  | sendConnection {n s} : (n, s) ∈ db.sends → db.Forbids (.send n) (.connection s.connectionId)
  | resolutionUser {n r} : db.resolutions.get n = some r → db.Forbids (.resolution n) (.user r.userId)

def references (db : Database) : References RowKey := ⟨db.Cascades, db.Forbids⟩

/-- A row that is there and is another user's, or another user. -/
def Others (db : Database) (u : Nat) : RowKey → Prop
  | .user n => n ≠ u
  | .connection n => ∃ c, db.connections.get n = some c ∧ c.userId ≠ u
  | .search n => ∃ s, (n, s) ∈ db.searches ∧ s.userId ≠ u
  | .run n => ∃ r, (n, r) ∈ db.runs ∧ db.ownsSearch u r.searchId = false
  | .result n => db.Foreign u n
  | .draft n => ∃ d, (n, d) ∈ db.drafts ∧ d.userId ≠ u
  | .send n => ∃ s, (n, s) ∈ db.sends ∧ s.userId ≠ u
  | .resolution n => ∃ r, db.resolutions.get n = some r ∧ db.ownsSend u r.sendId = false

end Database

/-- No other user's row is changed, referred to that was not, or kept from being deleted that could be. -/
structure Spared (u : Nat) (db db' : Database) : Prop extends Untouched u db db' where
  referred : ∀ c p, db.Others u p → db'.references.Refers c p → db.references.Refers c p
  deletable : ∀ p, db.Others u p → db.references.Deletable p → db'.references.Deletable p

variable {u v id : Nat} {db db' : Database} {c p : RowKey}

/-! ## One owner -/

namespace Database

theorem Sound.other_search (h : db.Sound) {s : SearchRow} (hs : (id, s) ∈ db.searches) (hu : s.userId ≠ u) :
    db.ownsSearch u id = false := by
  rw [← Bool.not_eq_true, ownsSearch_iff]
  rintro ⟨s', hs', hu'⟩
  obtain rfl : s = s' := congrArg Prod.snd (Keyed.eq_of_key h.searchKeys hs hs' rfl)
  exact hu hu'

theorem Sound.other_send (h : db.Sound) {s : SendRow} (hs : (id, s) ∈ db.sends) (hu : s.userId ≠ u) :
    db.ownsSend u id = false := by
  rw [← Bool.not_eq_true, ownsSend_iff]
  rintro ⟨s', hs', hu'⟩
  obtain rfl : s = s' := congrArg Prod.snd (Keyed.eq_of_key h.sendKeys hs hs' rfl)
  exact hu hu'

/-- **What cascades from another user's row is another user's.** -/
theorem Sound.others_closed (h : db.Sound) (hp : db.Others u p) (hc : db.Cascades c p) : db.Others u c := by
  cases hc with
  | connectionUser hget => exact ⟨_, hget, hp⟩
  | searchUser hs => exact ⟨_, hs, hp⟩
  | runSearch hr =>
    obtain ⟨s, hs, hu⟩ := hp
    exact ⟨_, hr, h.other_search hs hu⟩
  | resultSearch hr =>
    obtain ⟨s, hs, hu⟩ := hp
    exact ⟨_, hr, rfl, h.other_search hs hu⟩
  | resultRun hr =>
    obtain ⟨run, hrun, hown⟩ := hp
    obtain ⟨run', hrun', he⟩ := h.resultRun _ hr
    obtain rfl : run = run' := congrArg Prod.snd (Keyed.eq_of_key h.runKeys hrun hrun' rfl)
    exact ⟨_, hr, rfl, he ▸ hown⟩
  | draftUser hd => exact ⟨_, hd, hp⟩
  | sendUser hs => exact ⟨_, hs, hp⟩
  | resolutionSend hget =>
    obtain ⟨s, hs, hu⟩ := hp
    exact ⟨_, hget, h.other_send hs hu⟩

end Database

/-! ## Rows that are left alone -/

namespace Untouched

open Database

theorem symm (h : Untouched u db db') : Untouched u db' db where
  users := h.users.symm
  connections := h.connections.symm
  results := h.results.symm
  searches := h.searches.symm
  runs := h.runs.symm
  drafts := h.drafts.symm
  sends := h.sends.symm
  jobs := h.jobs.symm
  resolutions := h.resolutions.symm

theorem not_own {n : Nat} (h : n ≠ u) : (!(n == u)) = true := by rw [beq_false_of_ne h]; rfl

theorem search (h : Untouched u db db') {s : SearchRow} (hs : (id, s) ∈ db.searches) (hu : s.userId ≠ u) :
    (id, s) ∈ db'.searches := Keyed.mem_of_own h.searches.symm hs (not_own hu)

theorem draft (h : Untouched u db db') {d : DraftRow} (hd : (id, d) ∈ db.drafts) (hu : d.userId ≠ u) :
    (id, d) ∈ db'.drafts := Keyed.mem_of_own h.drafts.symm hd (not_own hu)

theorem send (h : Untouched u db db') {s : SendRow} (hs : (id, s) ∈ db.sends) (hu : s.userId ≠ u) :
    (id, s) ∈ db'.sends := Keyed.mem_of_own h.sends.symm hs (not_own hu)

theorem run (h : Untouched u db db') {r : Search.AdapterRunRow} (hr : (id, r) ∈ db.runs)
    (hown : db.ownsSearch u r.searchId = false) : (id, r) ∈ db'.runs ∧ db'.ownsSearch u r.searchId = false := by
  have hmem := h.runs ▸ List.mem_filter.2 ⟨hr, by rw [hown]; rfl⟩
  obtain ⟨hr', hown'⟩ := List.mem_filter.1 hmem
  exact ⟨hr', Bool.not_eq_true' _ ▸ hown'⟩

theorem resolution (h : Untouched u db db') {r : ResolutionRow} (hr : db.resolutions.get id = some r)
    (hown : db.ownsSend u r.sendId = false) :
    db'.resolutions.get id = some r ∧ db'.ownsSend u r.sendId = false := by
  have hmem := h.resolutions ▸ List.mem_filter.2 ⟨Table.mem_rows.2 hr, by rw [hown]; rfl⟩
  obtain ⟨hr', hown'⟩ := List.mem_filter.1 hmem
  exact ⟨Table.mem_rows.1 hr', Bool.not_eq_true' _ ▸ hown'⟩

/-- Another user's row is there, and another user's, afterwards. -/
theorem others (h : Untouched u db db') (hs : db.Sound) (hp : db.Others u p) : db'.Others u p := by
  cases p with
  | user n => exact hp
  | connection n =>
    obtain ⟨c, hget, hu⟩ := hp
    exact ⟨c, h.connections ▸ hget, hu⟩
  | search n =>
    obtain ⟨s, hmem, hu⟩ := hp
    exact ⟨s, h.search hmem hu, hu⟩
  | run n =>
    obtain ⟨r, hr, hown⟩ := hp
    exact ⟨r, h.run hr hown⟩
  | result n =>
    obtain ⟨r, hr, he, hown⟩ := hp
    obtain ⟨run, hrun, hsearch⟩ := hs.resultRun r hr
    exact ⟨r, h.results ▸ hr, he, hsearch ▸ (h.run hrun (hsearch ▸ hown)).2⟩
  | draft n =>
    obtain ⟨d, hd, hu⟩ := hp
    exact ⟨d, h.draft hd hu, hu⟩
  | send n =>
    obtain ⟨s, hmem, hu⟩ := hp
    exact ⟨s, h.send hmem hu, hu⟩
  | resolution n =>
    obtain ⟨r, hr, hown⟩ := hp
    exact ⟨r, h.resolution hr hown⟩

theorem cascades (h : Untouched u db db') (hs : db.Sound) (hp : db.Others u p) (hc : db.Cascades c p) :
    db'.Cascades c p := by
  have hother := hs.others_closed hp hc
  cases hc with
  | connectionUser hget => exact .connectionUser (h.connections ▸ hget)
  | searchUser hmem => exact .searchUser (h.search hmem hp)
  | runSearch hr =>
    obtain ⟨s, hmem, hu⟩ := hp
    exact .runSearch (h.run hr (hs.other_search hmem hu)).1
  | resultSearch hr => exact .resultSearch (h.results ▸ hr)
  | resultRun hr => exact .resultRun (h.results ▸ hr)
  | draftUser hd => exact .draftUser (h.draft hd hp)
  | sendUser hmem => exact .sendUser (h.send hmem hp)
  | resolutionSend hget =>
    obtain ⟨s, hmem, hu⟩ := hp
    exact .resolutionSend (h.resolution hget (hs.other_send hmem hu)).1

/-- What refers to another user's row was there before, replies of the user's own drafts apart. -/
theorem forbids (h : Untouched u db db') (hs : db.Sound) (hp : db.Others u p) (hc : db.Forbids c p)
    (hreply : ∀ n d k, (n, d) ∈ db.drafts → d.userId = u → k ∈ d.inReplyToResultId → db.Foreign u k →
      db'.Forbids (.draft n) (.result k)) : db'.Forbids c p := by
  cases hc with
  | runConnection hr hn =>
    obtain ⟨c, hget, hu⟩ := hp
    obtain ⟨c', hget', hown⟩ := hs.runConnection _ hr _ hn
    obtain rfl : c = c' := Option.some.inj (hget.symm.trans hget')
    obtain ⟨s, hmem, hsu⟩ := ownsSearch_iff.1 hown
    exact .runConnection (h.run hr (hs.other_search hmem (hsu ▸ hu))).1 hn
  | draftConnection hd =>
    obtain ⟨c, hget, hu⟩ := hp
    obtain ⟨c', hget', hcu⟩ := hs.draftConnection _ hd
    obtain rfl : c = c' := Option.some.inj (hget.symm.trans hget')
    exact .draftConnection (h.draft hd (hcu ▸ hu))
  | @draftReply n d k hd hk =>
    by_cases hu : d.userId = u
    · exact hreply n d k hd hu hk hp
    · exact .draftReply (h.draft hd hu) hk
  | sendDraft hmem =>
    obtain ⟨d, hd, hu⟩ := hp
    obtain ⟨d', hd', hdu⟩ := hs.sendDraft _ hmem
    obtain rfl : d = d' := congrArg Prod.snd (Keyed.eq_of_key hs.draftKeys hd hd' rfl)
    exact .sendDraft (h.send hmem (hdu ▸ hu))
  | sendConnection hmem =>
    obtain ⟨c, hget, hu⟩ := hp
    obtain ⟨c', hget', hcu⟩ := hs.sendConnection _ hmem
    obtain rfl : c = c' := Option.some.inj (hget.symm.trans hget')
    exact .sendConnection (h.send hmem (hcu ▸ hu))
  | resolutionUser hget =>
    obtain ⟨s, hmem, hsu⟩ := hs.resolutionSend _ _ hget
    exact .resolutionUser (h.resolution hget (hs.other_send hmem (hsu ▸ hp))).1

end Untouched

/-! ## Confined changes -/

namespace Confined

open Database

theorem cascades_iff (h : Confined u db db') (hs : db.Sound) (hs' : db'.Sound) (hp : db.Others u p) :
    db'.Cascades c p ↔ db.Cascades c p :=
  ⟨h.toUntouched.symm.cascades hs' (h.toUntouched.others hs hp), h.toUntouched.cascades hs hp⟩

theorem forbids (h : Confined u db db') (hs : db.Sound) (hs' : db'.Sound) (hp : db.Others u p)
    (hc : db'.Forbids c p) : db.Forbids c p := by
  refine h.toUntouched.symm.forbids hs' (h.toUntouched.others hs hp) hc fun n d k hd hu hk hforeign => ?_
  rcases h.replies (n, d) hd hu k hk with ⟨⟨n', d'⟩, hd', rfl, -, hk'⟩ | hnot
  · exact .draftReply hd' hk'
  · exact absurd (h.toUntouched.symm.others (p := .result k) hs' hforeign) hnot

/-- **A confined change spares every other user's row.** -/
theorem spared (h : Confined u db db') (hs : db.Sound) (hs' : db'.Sound) : Spared u db db' :=
  { h.toUntouched with
    referred := fun _ _ hp hc => hc.imp (h.cascades_iff hs hs' hp).1 (h.forbids hs hs' hp)
    deletable := fun _ hp hd => by
      have hclosed : ∀ c p, db.Others u p → db.references.cascades c p → db.Others u c := fun _ _ => hs.others_closed
      exact hd.congr hclosed (fun _ _ hp => h.cascades_iff hs hs' hp) (fun _ _ hp hc => h.forbids hs hs' hp hc) hp }

end Confined
end Isolation
end SafeSend
