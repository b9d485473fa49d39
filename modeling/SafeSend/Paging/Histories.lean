import SafeSend.Paging.Walk
/-!
# The walks of the two histories

`list_sends` and `list_searches` page the rows their callers see by `(created_at, id)`.
-/
namespace SafeSend
namespace Paging

open Lib

section

variable {α β : Type} (view : Fetched α → β) (key : β → Position) (userId : Nat) (includeSeed : Bool)

/-- **What a query selects is what is below its position**, of the rows the user sees. -/
theorem map_select (hkey : ∀ r, key (view r) = r.head.position) {before : Option Cursor} {pos : Keyset.Pos Position}
    (hbefore : ∀ h : Head, h.before before = pos.past h.position) (rows : List (Fetched α)) (limit : Nat) :
    (select rows userId includeSeed before limit).map view =
      (Keyset.below key pos ((rows.filter fun r => r.head.visible userId includeSeed).map view)).take limit := by
  have hfilter : (rows.filter fun r => r.head.visible userId includeSeed && r.head.before before) =
      (rows.filter fun r => r.head.visible userId includeSeed).filter fun r => pos.past (key (view r)) := by
    rw [List.filter_filter]
    apply List.filter_congr
    intro r _
    rw [hbefore, hkey, Bool.and_comm]
  unfold select Keyset.below
  rw [hfilter, List.map_take, List.map_mergeSort (s := fun a b => decide (key b ≤ key a)), List.filter_map]
  · rfl
  · intro a _ b _
    rw [hkey, hkey]

theorem map_visible (hkey : ∀ r, key (view r) = r.head.position) {rows : List (Fetched α)} {heads : List Head}
    (hheads : rows.map Fetched.head = heads) :
    ((rows.filter fun r => r.head.visible userId includeSeed).map view).map key =
      (heads.filter (Head.visible userId includeSeed)).map Head.position := by
  have hcomp : key ∘ view = Head.position ∘ Fetched.head := funext hkey
  rw [← hheads, List.filter_map, List.map_map, List.map_map, hcomp]
  rfl

end

/-- Rows paged and then shown are rows shown and then paged. -/
theorem page_map {α β : Type} (view : α → β) (rows : List α) (limit : Nat) (time : β → Datetime) (id : β → Uuid) :
    page (rows.map view) limit time id =
      ((page rows limit (fun r => time (view r)) (fun r => id (view r))).1.map view,
        (page rows limit (fun r => time (view r)) (fun r => id (view r))).2) := by
  unfold page
  rw [List.length_map]
  by_cases hshort : rows.length ≤ limit
  · rw [if_pos hshort, if_pos hshort]
  · rw [if_neg hshort, if_neg hshort]
    simp only [← List.map_take, List.getLast?_map, Option.map_map, Function.comp_def]

/-- Rows under ids of their own have positions of their own. -/
theorem nodup_positions {σ : Type} {t : Table σ} {stamp : Nat → Stamp} {user : σ → Nat}
    (hunique : ∀ m n, (t.get m).isSome → (t.get n).isSome → (stamp m).id = (stamp n).id → m = n) :
    ((t.rows.map fun r => (⟨stamp r.1, user r.2⟩ : Head)).map Head.position).Nodup := by
  rw [List.map_map]
  apply List.pairwise_map.2
  apply t.rows_sorted.imp_of_mem
  intro a b ha hb hlt he
  have hid : (stamp a.1).id = (stamp b.1).id := congrArg Prod.snd (toLex.injective he)
  have hsame := hunique a.1 b.1 (by rw [Table.mem_rows.1 ha]; rfl) (by rw [Table.mem_rows.1 hb]; rfl) hid
  omega

section

variable (settings : Settings) (userId : Nat) (includeSeed : Bool)

/-- The sends a user sees. -/
def sendItems (w : SendTables) : List SendItem :=
  (w.joined.filter fun r => r.head.visible userId includeSeed).map (detailPayload settings w.store.now)

def searchItems (w : SearchTables) : List SearchItem :=
  (w.grouped.filter fun r => r.head.visible userId includeSeed).map searchItem

/-- No send is lost in a join. -/
theorem heads_joined (w : SendTables) : w.joined.map Fetched.head = w.heads := by
  unfold SendTables.joined SendTables.heads
  rw [List.map_filterMap, ← List.filterMap_eq_map]
  apply List.filterMap_congr
  intro r hr
  have hget := Table.mem_rows.1 hr
  obtain ⟨draft, hdraft⟩ := Option.isSome_iff_exists.1 (w.draft r.1 r.2 hget)
  obtain ⟨connection, hconnection⟩ := Option.isSome_iff_exists.1 (w.connection r.1 r.2 hget)
  rw [hdraft, hconnection]
  rfl

theorem heads_grouped (w : SearchTables) : w.grouped.map Fetched.head = w.heads := List.map_map

theorem key_detailPayload (now : Nat) (r : Fetched JoinedSend) :
    position (detailPayload settings now r).createdAt (detailPayload settings now r).sendId = r.head.position := rfl

theorem key_searchItem (r : Fetched GroupedSearch) :
    position (searchItem r).createdAt (searchItem r).searchId = r.head.position := rfl

theorem lists_sends : Lists SendTables.heads userId includeSeed (listSends settings userId includeSeed) SendItem.createdAt
    SendItem.sendId (sendItems settings userId includeSeed) where
  serves w limit cursor pos hc := by
    obtain ⟨before, hdecoded, hbefore⟩ := hc.decodes
    have hselect := map_select (detailPayload settings w.store.now) (fun x => position x.createdAt x.sendId) userId
      includeSeed (key_detailPayload settings w.store.now) hbefore w.joined (limit + 1)
    unfold listSends
    rw [hdecoded]
    show Except.ok _ = _
    rw [hselect]
    rfl
  keys w := map_visible (detailPayload settings w.store.now) (fun x => position x.createdAt x.sendId) userId includeSeed
    (key_detailPayload settings w.store.now) (heads_joined w)
  nodup w := nodup_positions w.unique

theorem lists_searches : Lists SearchTables.heads userId includeSeed (listSearches userId includeSeed)
    SearchItem.createdAt SearchItem.searchId (searchItems userId includeSeed) where
  serves w limit cursor pos hc := by
    obtain ⟨before, hdecoded, hbefore⟩ := hc.decodes
    have hselect := map_select searchItem (fun x => position x.createdAt x.searchId) userId includeSeed key_searchItem
      hbefore w.grouped (limit + 1)
    have hpage := page_map searchItem (select w.grouped userId includeSeed before (limit + 1)) limit
      (fun x => x.createdAt) SearchItem.searchId
    unfold listSearches
    rw [hdecoded]
    show Except.ok (Prod.mk _ _) = _
    rw [searchItems, ← hselect, hpage]
    rfl
  keys w := map_visible searchItem (fun x => position x.createdAt x.searchId) userId includeSeed key_searchItem (heads_grouped w)
  nodup w := nodup_positions w.unique

variable {settings userId includeSeed}

/-- **A keyset walk is complete and exact.**  A cursor reads back as the position it was made of exactly where the offset of
its time is none or has a second at the least, as those of the rows do; and whatever limits a client asks for and whatever
rows land between its requests, following `next_cursor` returns each row there was at the first read once, newest first,
is told the end exactly where nothing is left, and comes to it once nothing lands. -/
theorem keyset_walk {sends : Nat → Visit SendTables} (hsends : Orderly SendTables.heads sends)
    {searches : Nat → Visit SearchTables} (hsearches : Orderly SearchTables.heads searches) :
    (∀ t u, decode (encode t u) = .ok ⟨t, u⟩ ↔ t.1.whole) ∧
      Exact SendTables.heads (fun x => position x.createdAt x.sendId) userId includeSeed
        (listSends settings userId includeSeed) sends ∧
      Exact SearchTables.heads (fun x => position x.createdAt x.searchId) userId includeSeed
        (listSearches userId includeSeed) searches :=
  ⟨decode_encode_iff, (lists_sends settings userId includeSeed).exact hsends, (lists_searches userId includeSeed).exact hsearches⟩

end

/-! Two sends written in one transaction, and a third while the walk is on its way. -/

theorem valid_written : Civil.valid ⟨2026, 1, 2, 3, 4, 5, 6, 0⟩ := by decide

def numbered (n : Nat) : Stamp where
  id := Fin.ofNat _ n
  createdAt := ⟨⟨_, valid_written⟩, .inl rfl⟩

theorem numbered_inj {m n : Nat} (hm : m < 2 ^ 128) (hn : n < 2 ^ 128) (h : (numbered m).id = (numbered n).id) : m = n := by
  have hval : m % 2 ^ 128 = n % 2 ^ 128 := congrArg Fin.val h
  rwa [Nat.mod_eq_of_lt hm, Nat.mod_eq_of_lt hn] at hval

/-- A table of one row again and again. -/
def copies {σ : Type} (a : σ) : Nat → Table σ
  | 0 => .empty
  | n + 1 => (copies a n).insert a

theorem next_copies {σ : Type} (a : σ) (n : Nat) : (copies a n).next = n := by
  induction n with
  | zero => rfl
  | succ n ih => rw [copies, Table.next_insert, ih]

theorem get_copies {σ : Type} (a : σ) (n k : Nat) : (copies a n).get k = if k < n then some a else none := by
  induction n with
  | zero => rfl
  | succ n ih =>
    rw [copies, Table.get_insert, ih, next_copies]
    by_cases hk : k = n
    · rw [if_pos hk, if_pos (by omega)]
    · rw [if_neg hk]
      by_cases hlt : k < n
      · rw [if_pos hlt, if_pos (by omega)]
      · rw [if_neg hlt, if_neg (by omega)]

theorem lt_of_copies {σ : Type} {a b : σ} {n k : Nat} (h : (copies a n).get k = some b) : k < n ∧ b = a := by
  rw [get_copies] at h
  by_cases hk : k < n
  · rw [if_pos hk] at h
    cases h
    exact ⟨hk, rfl⟩
  · rw [if_neg hk] at h
    cases h

theorem numbered_copies {σ : Type} (a : σ) {n : Nat} (hn : n ≤ 2 ^ 128) (i j : Nat) (hi : ((copies a n).get i).isSome)
    (hj : ((copies a n).get j).isSome) (h : (numbered i).id = (numbered j).id) : i = j := by
  obtain ⟨b, hb⟩ := Option.isSome_iff_exists.1 hi
  obtain ⟨c, hc⟩ := Option.isSome_iff_exists.1 hj
  exact numbered_inj (Nat.lt_of_lt_of_le (lt_of_copies hb).1 hn) (Nat.lt_of_lt_of_le (lt_of_copies hc).1 hn) h

def greeting : Send.DraftRow where
  userId := 0
  connectionId := 0
  channel := .gmail
  recipient := "ada@example.com"
  recipientDisplay := "ada@example.com"
  subject := none
  body := "hello"
  idempotencyKey := "k"

def greeted : Send.SendRow where
  userId := 0
  draftId := 0
  connectionId := 0
  provider := .gmail
  idempotencyKey := "k"
  confirmedSha256 := ""
  createdAt := 0

theorem joined_greeted {σ : Type} (a : σ) (n k : Nat) (s : Send.SendRow) (h : (copies greeted n).get k = some s) :
    ((copies a 1).get s.draftId).isSome ∧ ((copies a 1).get s.connectionId).isSome := by
  obtain ⟨-, rfl⟩ := lt_of_copies h
  exact ⟨rfl, rfl⟩

def greetings (n : Nat) (hn : n ≤ 2 ^ 128) : SendTables where
  store :=
    { connections := copies ⟨0, .gmail, .active, "ada"⟩ 1
      drafts := copies greeting 1
      sends := copies greeted n }
  stamp := numbered
  unique := numbered_copies greeted hn
  draft k s h := (joined_greeted _ n k s h).1
  connection k s h := (joined_greeted _ n k s h).2

def searched (n : Nat) (hn : n ≤ 2 ^ 128) : SearchTables where
  store := { searches := copies ⟨0, "ada", 0, none⟩ n }
  stamp := numbered
  unique := numbered_copies _ hn

theorem few (n : Nat) : min 3 (n + 2) ≤ 2 ^ 128 := by omega

/-- Two rows at the first read and three from then on, a row a page. -/
def greetingVisits (n : Nat) : Visit SendTables := ⟨1, greetings (min 3 (n + 2)) (few n)⟩

def searchVisits (n : Nat) : Visit SearchTables := ⟨1, searched (min 3 (n + 2)) (few n)⟩

theorem heads_copies {σ : Type} {a : σ} {m n : Nat} (hmn : m ≤ n) (user : σ → Nat) {h : Head}
    (hh : h ∈ (copies a m).rows.map fun r => (⟨numbered r.1, user r.2⟩ : Head)) :
    h ∈ (copies a n).rows.map fun r => (⟨numbered r.1, user r.2⟩ : Head) := by
  obtain ⟨⟨k, b⟩, hr, rfl⟩ := List.mem_map.1 hh
  obtain ⟨hk, rfl⟩ := lt_of_copies (Table.mem_rows.1 hr)
  exact List.mem_map.2 ⟨(k, b), Table.mem_rows.2 (by rw [get_copies, if_pos (by omega)]), rfl⟩

theorem one_le_max : 1 ≤ MAX_LIMIT := by decide

theorem orderly_greetings : Orderly SendTables.heads greetingVisits where
  limit _ := ⟨Nat.le_refl 1, one_le_max⟩
  stays _ _ hh := heads_copies (by omega) Send.SendRow.userId hh

theorem orderly_searches : Orderly SearchTables.heads searchVisits where
  limit _ := ⟨Nat.le_refl 1, one_le_max⟩
  stays _ _ hh := heads_copies (by omega) Search.SearchRow.userId hh

theorem keyset_walk_tied :
    (∀ t u, decode (encode t u) = .ok ⟨t, u⟩ ↔ t.1.whole) ∧
      Exact SendTables.heads (fun x => position x.createdAt x.sendId) 0 true (listSends {} 0 true) greetingVisits ∧
      Exact SearchTables.heads (fun x => position x.createdAt x.searchId) 0 true (listSearches 0 true) searchVisits :=
  keyset_walk orderly_greetings orderly_searches

end Paging
end SafeSend
