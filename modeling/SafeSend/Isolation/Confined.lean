import SafeSend.Isolation.Sound
/-!
# What a user's statements leave alone

The rows of the other users, and the results a user's drafts reply to.  Whose a row is is read off the rows it belongs
to, so each statement is first shown to change the owner of no row that is there.
-/
namespace SafeSend
namespace Isolation

open Lib

/-- Every row that is not the user's is as it was, in its place. -/
structure Untouched (u : Nat) (db db' : Database) : Prop where
  users : db'.users = db.users
  connections : db'.connections = db.connections
  results : db'.results = db.results
  searches : (db'.searches.filter fun r => !(r.2.userId == u)) = db.searches.filter fun r => !(r.2.userId == u)
  runs : (db'.runs.filter fun r => !db'.ownsSearch u r.2.searchId) =
    db.runs.filter fun r => !db.ownsSearch u r.2.searchId
  drafts : (db'.drafts.filter fun r => !(r.2.userId == u)) = db.drafts.filter fun r => !(r.2.userId == u)
  sends : (db'.sends.filter fun r => !(r.2.userId == u)) = db.sends.filter fun r => !(r.2.userId == u)
  jobs : (db'.jobs.rows.filter fun r => !db'.ownsJob u r.2) = db.jobs.rows.filter fun r => !db.ownsJob u r.2
  resolutions : (db'.resolutions.rows.filter fun r => !db'.ownsSend u r.2.sendId) =
    db.resolutions.rows.filter fun r => !db.ownsSend u r.2.sendId

/-- A result of another user's search. -/
def Database.Foreign (db : Database) (u k : Nat) : Prop :=
  ∃ r ∈ db.results, r.1 = k ∧ db.ownsSearch u r.2.searchId = false

/-- And no draft of the user replies to another user's result that did not before. -/
structure Confined (u : Nat) (db db' : Database) : Prop extends Untouched u db db' where
  searchesStay : ∀ r ∈ db.searches, r ∈ db'.searches
  resultOwners : ∀ r ∈ db.results, db'.ownsSearch u r.2.searchId = db.ownsSearch u r.2.searchId
  replies : ∀ r ∈ db'.drafts, r.2.userId = u → ∀ k ∈ r.2.inReplyToResultId,
    (∃ d ∈ db.drafts, d.1 = r.1 ∧ d.2.userId = u ∧ k ∈ d.2.inReplyToResultId) ∨ ¬ db.Foreign u k

variable {u v id m : Nat} {db db' db'' : Database}

theorem Untouched.refl (u : Nat) (db : Database) : Untouched u db db := ⟨rfl, rfl, rfl, rfl, rfl, rfl, rfl, rfl, rfl⟩

theorem Untouched.trans (h : Untouched u db db') (h' : Untouched u db' db'') : Untouched u db db'' where
  users := h'.users.trans h.users
  connections := h'.connections.trans h.connections
  results := h'.results.trans h.results
  searches := h'.searches.trans h.searches
  runs := h'.runs.trans h.runs
  drafts := h'.drafts.trans h.drafts
  sends := h'.sends.trans h.sends
  jobs := h'.jobs.trans h.jobs
  resolutions := h'.resolutions.trans h.resolutions

theorem Confined.refl (u : Nat) (db : Database) : Confined u db db :=
  { Untouched.refl u db with
    searchesStay := fun _ hr => hr
    resultOwners := fun _ _ => rfl
    replies := fun r hr hu _ hk => .inl ⟨r, hr, rfl, hu, hk⟩ }

theorem Confined.foreign (h : Confined u db db') {k : Nat} (hk : db.Foreign u k) : db'.Foreign u k := by
  obtain ⟨r, hr, he, hown⟩ := hk
  exact ⟨r, h.results ▸ hr, he, (h.resultOwners r hr).trans hown⟩

theorem Confined.trans (h : Confined u db db') (h' : Confined u db' db'') : Confined u db db'' :=
  { h.toUntouched.trans h'.toUntouched with
    searchesStay := fun r hr => h'.searchesStay r (h.searchesStay r hr)
    resultOwners := fun r hr => (h'.resultOwners r (h.results ▸ hr)).trans (h.resultOwners r hr)
    replies := by
      intro r hr hu k hk
      rcases h'.replies r hr hu k hk with ⟨d, hd, he, hdu, hdk⟩ | hf
      · rcases h.replies d hd hdu k hdk with ⟨d₀, hd₀, he₀, hdu₀, hdk₀⟩ | hf
        · exact .inl ⟨d₀, hd₀, he₀.trans he, hdu₀, hdk₀⟩
        · exact .inr hf
      · exact .inr fun hk => hf (h.foreign hk) }

/-! ## Owners after a statement -/

namespace Database

theorem any_append_of_ne {α : Type} {t : List (Nat × α)} {a : α} (p : α → Bool) (h : m ≠ id) :
    ((t ++ [(id, a)]).any fun r => r.1 == m && p r.2) = t.any fun r => r.1 == m && p r.2 := by
  rw [List.any_append, List.any_cons, List.any_nil, Bool.or_false, beq_false_of_ne (Ne.symm h), Bool.false_and,
    Bool.or_false]

theorem ownsSearch_insert (row : SearchRow) (h : m ≠ id) :
    ({ db with searches := db.searches ++ [(id, row)] } : Database).ownsSearch v m = db.ownsSearch v m :=
  any_append_of_ne (fun s : SearchRow => s.userId == v) h

theorem ownsSend_insert (row : SendRow) (h : m ≠ id) :
    ({ db with sends := db.sends ++ [(id, row)] } : Database).ownsSend v m = db.ownsSend v m :=
  any_append_of_ne (fun s : SendRow => s.userId == v) h

theorem ownsRun_insert (row : Search.AdapterRunRow) (h : m ≠ id) :
    ({ db with runs := db.runs ++ [(id, row)] } : Database).ownsRun v m = db.ownsRun v m :=
  any_append_of_ne (fun r : Search.AdapterRunRow => db.ownsSearch v r.searchId) h

theorem ownsSend_updateSend {guard : Send.SendRow → Bool} {f : Send.SendRow → Send.SendRow} (hf : Settles f) (v m : Nat) :
    (db.updateSend u id guard f).ownsSend v m = db.ownsSend v m := by
  show (List.map _ db.sends).any _ = db.sends.any _
  rw [List.any_map]
  congr 1
  funext r
  show (_ : Bool) = _
  simp only [Function.comp_apply]
  split
  next => rw [show (SendRow.settled f r.2).userId = r.2.userId from (hf r.2.toSendRow).1]
  next => rfl

theorem Sound.searchId_ne (h : db.Sound) (hid : db.Unused id) {r : Nat × Search.AdapterRunRow} (hr : r ∈ db.runs) :
    r.2.searchId ≠ id := by
  obtain ⟨s, hs⟩ := h.runSearch r hr
  exact hid.searches _ hs

theorem Sound.result_searchId_ne (h : db.Sound) (hid : db.Unused id) {r : Nat × Search.ResultRow} (hr : r ∈ db.results) :
    r.2.searchId ≠ id := by
  obtain ⟨run, hrun, he⟩ := h.resultRun r hr
  exact he ▸ h.searchId_ne hid hrun

theorem Sound.sendId_ne (h : db.Sound) (hid : db.Unused id) {r : Nat × ResolutionRow} (hr : r ∈ db.resolutions.rows) :
    r.2.sendId ≠ id := by
  obtain ⟨s, hs, -⟩ := h.resolutionSend r.1 r.2 (Table.mem_rows.1 hr)
  exact hid.sends _ hs

theorem Unused.refId_ne (hid : db.Unused id) {r : Nat × Queue.JobRow} (hr : r ∈ db.jobs.rows) : r.2.refId ≠ id :=
  hid.jobs r.1 r.2 (Table.mem_rows.1 hr)

theorem Sound.ownsRun_insertSearch (h : db.Sound) (hid : db.Unused id) (row : SearchRow) (v m : Nat) :
    ({ db with searches := db.searches ++ [(id, row)] } : Database).ownsRun v m = db.ownsRun v m := by
  rw [Bool.eq_iff_iff, ownsRun_iff, ownsRun_iff]
  refine exists_congr fun r => and_congr_right fun hr => ?_
  rw [ownsSearch_insert row (h.searchId_ne hid hr)]

theorem Sound.ownsJob_insertSearch (h : db.Sound) (hid : db.Unused id) (row : SearchRow) (v : Nat) (j : Queue.JobRow) :
    ({ db with searches := db.searches ++ [(id, row)] } : Database).ownsJob v j = db.ownsJob v j := by
  unfold ownsJob
  cases j.kind with
  | adapterRun => exact h.ownsRun_insertSearch hid row v j.refId
  | send => rfl

theorem ownsJob_insertSend (row : SendRow) (v : Nat) {j : Queue.JobRow} (hj : j.refId ≠ id) :
    ({ db with sends := db.sends ++ [(id, row)] } : Database).ownsJob v j = db.ownsJob v j := by
  unfold ownsJob
  cases j.kind with
  | adapterRun => rfl
  | send => exact ownsSend_insert row hj

theorem ownsJob_insertRun (row : Search.AdapterRunRow) (v : Nat) {j : Queue.JobRow} (hj : j.refId ≠ id) :
    ({ db with runs := db.runs ++ [(id, row)] } : Database).ownsJob v j = db.ownsJob v j := by
  unfold ownsJob
  cases j.kind with
  | adapterRun => exact ownsRun_insert row hj
  | send => rfl

theorem ownsJob_updateSend {guard : Send.SendRow → Bool} {f : Send.SendRow → Send.SendRow} (hf : Settles f) (v : Nat)
    (j : Queue.JobRow) : (db.updateSend u id guard f).ownsJob v j = db.ownsJob v j := by
  unfold ownsJob
  cases j.kind with
  | adapterRun => rfl
  | send => exact ownsSend_updateSend hf v j.refId

end Database

/-! ## What each statement leaves -/

namespace Confined

open Database

theorem filter_append_own {α : Type} {p : α → Bool} {t : List α} {a : α} (h : p a = true) :
    ((t ++ [a]).filter fun r => !p r) = t.filter fun r => !p r := by
  rw [List.filter_append, List.filter_cons_of_neg (by rw [h]; exact Bool.false_ne_true), List.filter_nil,
    List.append_nil]

theorem draw (u : Nat) (db : Database) : Confined u db { db with drawn := db.drawn + 1 } :=
  { Confined.refl u db with }

theorem insertDraft (db : Database) (id : Nat) {row : DraftRow} (hu : row.userId = u)
    (hreply : ∀ k ∈ row.inReplyToResultId, ¬ db.Foreign u k) :
    Confined u db { db with drafts := db.drafts ++ [(id, row)] } :=
  { Confined.refl u db with
    drafts := filter_append_own (p := fun r : Nat × DraftRow => r.2.userId == u) (beq_iff_eq.2 hu)
    replies := by
      intro r hr hru k hk
      rcases List.mem_append.1 hr with hr | hr
      · exact .inl ⟨r, hr, rfl, hru, hk⟩
      · rw [List.mem_singleton.1 hr] at hk
        exact .inr (hreply k hk) }

theorem updateDraft (u id : Nat) (e : Send.DraftEdit) (db : Database) : Confined u db (db.updateDraft u id e) :=
  { Confined.refl u db with
    drafts := by
      refine Keyed.filter_not_alter (fun r : Nat × DraftRow => r.2.userId == u) fun r _ hp => ?_
      exact ⟨(Bool.and_eq_true_iff.1 hp).2, (Bool.and_eq_true_iff.1 hp).2⟩
    replies := by
      intro r hr hru k hk
      rcases Keyed.mem_alter_cases hr with hr | ⟨d, hd, -, hid, he⟩
      · exact .inl ⟨r, hr, rfl, hru, hk⟩
      · rw [he] at hru hk
        exact .inl ⟨d, hd, hid.symm, hru, hk⟩ }

theorem insertSend (h : db.Sound) (hid : db.Unused id) {row : SendRow} (hu : row.userId = u) :
    Confined u db { db with sends := db.sends ++ [(id, row)] } :=
  { Confined.refl u db with
    sends := filter_append_own (p := fun r : Nat × SendRow => r.2.userId == u) (beq_iff_eq.2 hu)
    jobs := List.filter_congr fun _ hr => congrArg not (ownsJob_insertSend row u (hid.refId_ne hr))
    resolutions := List.filter_congr fun _ hr => congrArg not (ownsSend_insert row (h.sendId_ne hid hr)) }

theorem updateSend (u id : Nat) (guard : Send.SendRow → Bool) {f : Send.SendRow → Send.SendRow} (hf : Settles f)
    (db : Database) : Confined u db (db.updateSend u id guard f) :=
  { Confined.refl u db with
    sends := by
      refine Keyed.filter_not_alter (fun r : Nat × SendRow => r.2.userId == u) fun r _ hp => ?_
      have hu : (r.2.userId == u) = true := (Bool.and_eq_true_iff.1 (Bool.and_eq_true_iff.1 hp).1).2
      exact ⟨hu, by rw [show (SendRow.settled f r.2).userId = r.2.userId from (hf r.2.toSendRow).1]; exact hu⟩
    jobs := List.filter_congr fun r _ => congrArg not (ownsJob_updateSend hf u r.2)
    resolutions := List.filter_congr fun r _ => congrArg not (ownsSend_updateSend hf u r.2.sendId) }

theorem onJobs {jobs : Queue.Jobs}
    (h : (jobs.rows.filter fun r => !db.ownsJob u r.2) = db.jobs.rows.filter fun r => !db.ownsJob u r.2) :
    Confined u db { db with jobs := jobs } :=
  { Confined.refl u db with jobs := h }

theorem insertResolution (db : Database) {row : ResolutionRow} (hs : db.ownsSend u row.sendId = true) :
    Confined u db { db with resolutions := db.resolutions.insert row } :=
  { Confined.refl u db with
    resolutions := by
      show (Table.rows _).filter _ = _
      rw [Table.rows_insert]
      exact filter_append_own (p := fun r : Nat × ResolutionRow => db.ownsSend u r.2.sendId) hs }

theorem insertSearch (h : db.Sound) (hid : db.Unused id) {row : SearchRow} (hu : row.userId = u) :
    Confined u db { db with searches := db.searches ++ [(id, row)] } :=
  { Confined.refl u db with
    searches := filter_append_own (p := fun r : Nat × SearchRow => r.2.userId == u) (beq_iff_eq.2 hu)
    runs := List.filter_congr fun _ hr => congrArg not (ownsSearch_insert row (h.searchId_ne hid hr))
    jobs := List.filter_congr fun r _ => congrArg not (h.ownsJob_insertSearch hid row u r.2)
    searchesStay := fun _ hr => List.mem_append_left _ hr
    resultOwners := fun _ hr => ownsSearch_insert row (h.result_searchId_ne hid hr) }

theorem insertRun (hid : db.Unused id) {row : Search.AdapterRunRow} (hs : db.ownsSearch u row.searchId = true) :
    Confined u db { db with runs := db.runs ++ [(id, row)] } :=
  { Confined.refl u db with
    runs := filter_append_own (p := fun r : Nat × Search.AdapterRunRow => db.ownsSearch u r.2.searchId) hs
    jobs := List.filter_congr fun _ hr => congrArg not (ownsJob_insertRun row u (hid.refId_ne hr)) }

end Confined
end Isolation
end SafeSend
