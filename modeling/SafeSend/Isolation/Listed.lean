import SafeSend.Isolation.Isolated
/-!
# The history and the detail agree

`list_sends` and `send_detail` read the same joins two ways.  Each row of the history is the item of its send's detail,
newest first, and a first page that is long enough for the user's own sends has every one of them.
-/
namespace SafeSend
namespace Isolation

open Lib
open Database

variable {u id : Nat} {db : Database} {A : Around} {limit : Nat} {includeSeed : Bool} {before : Option (Nat × Nat)}

theorem joined_send {r : Nat × SendRow} {j : JoinedSend} (h : db.joined r = some j) : j.id = r.1 ∧ j.send = r.2 := by
  obtain ⟨d, -, hrest⟩ := Option.bind_eq_some_iff.1 h
  obtain ⟨c, -, hj⟩ := Option.bind_eq_some_iff.1 hrest
  cases hj
  exact ⟨rfl, rfl⟩

/-- **Every send has its joins**: its draft and its connection are there. -/
theorem Database.Sound.joined (hs : db.Sound) {r : Nat × SendRow} (hr : r ∈ db.sends) : ∃ j, db.joined r = some j := by
  obtain ⟨d, hd, -⟩ := hs.sendDraft r hr
  obtain ⟨c, hc, -⟩ := hs.sendConnection r hr
  unfold Database.joined
  rw [Keyed.find?_key hs.draftKeys hd, hc]
  exact ⟨_, rfl⟩

theorem Database.Sound.find_send (hs : db.Sound) {r : Nat × SendRow} (hr : r ∈ db.sends) (hu : r.2.userId = u) :
    (db.sends.find? fun s => s.1 == r.1 && s.2.userId == u) = some r := by
  cases hf : db.sends.find? fun s => s.1 == r.1 && s.2.userId == u with
  | none =>
    refine absurd ?_ (List.find?_eq_none.1 hf r hr)
    exact Bool.and_eq_true_iff.2 ⟨beq_self_eq_true _, beq_iff_eq.2 hu⟩
  | some s =>
    have hp := List.find?_some (p := fun s : Nat × SendRow => s.1 == r.1 && s.2.userId == u) hf
    rw [Keyed.eq_of_key hs.sendKeys (List.mem_of_find?_eq_some hf) hr (beq_iff_eq.1 (Bool.and_eq_true_iff.1 hp).1)]

theorem sendDetail_eq (hs : db.Sound) (A : Around) {r : Nat × SendRow} (hr : r ∈ db.sends) (hu : r.2.userId = u)
    {j : JoinedSend} (hj : db.joined r = some j) :
    sendDetail A u r.1 db = .ok (⟨detailPayload A j, db.resolutionOf r.1, uncertainty j⟩, db) := by
  unfold sendDetail
  rw [Tx.read_bind, hs.find_send hr hu]
  dsimp only [Option.bind_some]
  rw [hj]
  rfl

/-- What is listed, before it is cut off: the user's rows that are asked for, with their joins. -/
theorem mem_listed {j : JoinedSend} (h : j ∈ db.listed u limit includeSeed before) :
    ∃ r ∈ db.sends, r.2.userId = u ∧ db.joined r = some j := by
  have hmem := List.mem_of_mem_take h
  obtain ⟨r, hr, hj⟩ := List.mem_filterMap.1 (List.mem_mergeSort.1 hmem)
  obtain ⟨hr, hp⟩ := List.mem_filter.1 hr
  exact ⟨r, hr, beq_iff_eq.1 (Bool.and_eq_true_iff.1 hp).1, hj⟩

/-- The user's own sends, those of the seed only where they are asked for. -/
def Database.asked (db : Database) (u : Nat) (includeSeed : Bool) : List (Nat × SendRow) :=
  db.sends.filter fun r => r.2.userId == u && (includeSeed || !r.2.isSeed)

theorem listed_all {r : Nat × SendRow} {j : JoinedSend} (hr : r ∈ db.asked u includeSeed) (hj : db.joined r = some j)
    (hlimit : (db.asked u includeSeed).length ≤ limit) : j ∈ db.listed u limit includeSeed none := by
  have hfirst : (db.sends.filter fun r => r.2.userId == u && ((includeSeed || !r.2.isSeed) &&
      (none : Option (Nat × Nat)).all fun c => decide (r.2.position r.1 < toLex c))) = db.asked u includeSeed := by
    unfold Database.asked
    refine List.filter_congr fun r _ => ?_
    rw [Option.all_none, Bool.and_true]
  unfold Database.listed
  rw [hfirst, List.take_of_length_le]
  · exact List.mem_mergeSort.2 (List.mem_filterMap.2 ⟨r, hr, hj⟩)
  · rw [List.length_mergeSort]
    exact (List.length_filterMap_le _ _).trans hlimit

theorem listed_sorted : (db.listed u limit includeSeed before).Pairwise fun a b =>
    b.send.position b.id ≤ a.send.position a.id := by
  unfold Database.listed
  refine List.Pairwise.sublist (List.take_sublist _ _) ?_
  refine List.Pairwise.imp (fun h => of_decide_eq_true h) (List.pairwise_mergeSort (fun a b c hab hbc => ?_) (fun a b => ?_) _)
  · exact decide_eq_true ((of_decide_eq_true hbc).trans (of_decide_eq_true hab))
  · rw [Bool.or_eq_true, decide_eq_true_eq, decide_eq_true_eq]
    exact le_total _ _

/-- **A row of the history is the item of its send's detail**, whatever page it is on, the newest first, and a first page
that is long enough for the user's own sends has every one that was asked for. -/
theorem listed_detail (hs : db.Sound) (A : Around) (u limit : Nat) (includeSeed : Bool) (before : Option (Nat × Nat)) :
    ∃ l, listSends A u limit includeSeed before db = .ok (l, db) ∧ l.length ≤ limit ∧
      (∀ d ∈ l, ∃ detail, sendDetail A u d.payload.sendId db = .ok (detail, db) ∧ detail.item = d) ∧
      l.Pairwise (fun d e => toLex (e.createdAt, e.payload.sendId) ≤ toLex (d.createdAt, d.payload.sendId)) ∧
      (before = none → (db.asked u includeSeed).length ≤ limit →
        ∀ r ∈ db.asked u includeSeed, ∃ d ∈ l, d.payload.sendId = r.1) := by
  refine ⟨(db.listed u limit includeSeed before).map (detailPayload A), rfl, ?_, ?_, ?_, ?_⟩
  · rw [List.length_map]
    exact List.length_take_le _ _
  · intro d hd
    obtain ⟨j, hj, rfl⟩ := List.mem_map.1 hd
    obtain ⟨r, hr, hu, hjoined⟩ := mem_listed hj
    have hid : (detailPayload A j).payload.sendId = r.1 := (joined_send hjoined).1
    rw [hid]
    exact ⟨_, sendDetail_eq hs A hr hu hjoined, rfl⟩
  · exact List.pairwise_map.2 listed_sorted
  · rintro rfl hlimit r hr
    obtain ⟨j, hj⟩ := hs.joined (List.mem_filter.1 hr).1
    exact ⟨detailPayload A j, List.mem_map.2 ⟨j, listed_all hr hj hlimit, rfl⟩, (joined_send hj).1⟩

def draftBy (key : String) : DraftRow where
  userId := 1
  connectionId := 0
  channel := .gmail
  recipient := "ann@example.com"
  recipientDisplay := "Ann"
  subject := some "Budget"
  body := "Thanks"
  idempotencyKey := key

def sendBy (key : String) (draftId createdAt : Nat) (isSeed : Bool) : SendRow where
  userId := 1
  draftId := draftId
  connectionId := 0
  provider := .gmail
  idempotencyKey := key
  confirmedSha256 := ""
  createdAt := createdAt
  isSeed := isSeed

/-- The first user has sent two drafts, the older of them in the seed. -/
def mailed : Database :=
  { found with
    drafts := [(30, draftBy "draft:0000000030"), (31, draftBy "draft:0000000031")]
    sends := [(40, sendBy "draft:0000000030" 30 7 true), (41, sendBy "draft:0000000031" 31 8 false)] }

theorem mailed_sound : mailed.Sound :=
  { found_sound with
    draftKeys := by
      show List.Nodup [_, _]
      decide
    sendKeys := by
      show List.Nodup [_, _]
      decide
    draftConnection := fun r hr => by
      rcases List.mem_cons.1 hr with rfl | hr
      · exact ⟨_, rfl, rfl⟩
      · rw [List.mem_singleton.1 hr]
        exact ⟨_, rfl, rfl⟩
    sendDraft := fun r hr => by
      rcases List.mem_cons.1 hr with rfl | hr
      · exact ⟨_, List.mem_cons_self, rfl⟩
      · rw [List.mem_singleton.1 hr]
        exact ⟨_, List.mem_cons_of_mem _ List.mem_cons_self, rfl⟩
    sendConnection := fun r hr => by
      rcases List.mem_cons.1 hr with rfl | hr
      · exact ⟨_, rfl, rfl⟩
      · rw [List.mem_singleton.1 hr]
        exact ⟨_, rfl, rfl⟩
    resolutionSend := fun _ _ hget => by cases hget
    unused := fun k hk =>
      { found_sound.unused k hk with
        drafts := fun r hr => by
          rcases List.mem_cons.1 hr with rfl | hr
          · show 30 ≠ k + 100
            omega
          · rw [List.mem_singleton.1 hr]
            show 31 ≠ k + 100
            omega
        sends := fun r hr => by
          rcases List.mem_cons.1 hr with rfl | hr
          · show 40 ≠ k + 100
            omega
          · rw [List.mem_singleton.1 hr]
            show 41 ≠ k + 100
            omega } }

theorem listed_detail_mailed : ∃ l, listSends around 1 2 true none mailed = .ok (l, mailed) ∧ l.length ≤ 2 ∧
    (∃ d ∈ l, d.payload.sendId = 41 ∧ ∃ detail, sendDetail around 1 41 mailed = .ok (detail, mailed) ∧ detail.item = d) ∧
    ∃ d ∈ l, d.payload.sendId = 40 := by
  obtain ⟨l, h, hlength, hitems, -, hall⟩ := listed_detail mailed_sound around 1 2 true none
  obtain ⟨d, hd, hid⟩ := hall rfl (by decide) _ (List.mem_cons_of_mem _ List.mem_cons_self)
  obtain ⟨detail, hdetail, hitem⟩ := hitems d hd
  rw [hid] at hdetail
  exact ⟨l, h, hlength, ⟨d, hd, hid, detail, hdetail, hitem⟩, hall rfl (by decide) _ List.mem_cons_self⟩

end Isolation
end SafeSend
