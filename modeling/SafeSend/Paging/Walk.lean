import SafeSend.Lib.Keyset
import SafeSend.Paging.Listing
/-!
# Following `next_cursor`

A client reads the first page and then the page each `next_cursor` asks for, until there is none.  A listing refines a
walk by keys: its cursors are the texts of the walk's positions.
-/
namespace SafeSend
namespace Paging

open Lib

/-! ## The client -/

/-- What the client does next. -/
inductive Follow
  | request (cursor : Option String)
  | ended
  | refused (e : ApiError)
  deriving DecidableEq

structure Reading (β : Type) where
  pages : List (List β) := []
  follow : Follow := .request none

/-- The limit of a request, and the tables it finds. -/
structure Visit (τ : Type) where
  limit : Nat
  tables : τ

/-- An endpoint: what it answers of some tables to a limit and a cursor. -/
abbrev Endpoint (τ β : Type) := τ → Nat → Option String → Except ApiError (List β × Option String)

variable {τ β : Type}

def Reading.visit (serve : Endpoint τ β) (r : Reading β) (v : Visit τ) : Reading β :=
  match r.follow with
  | .request cursor =>
    match serve v.tables v.limit cursor with
    | .ok (items, some next) => ⟨r.pages ++ [items], .request (some next)⟩
    | .ok (items, none) => ⟨r.pages ++ [items], .ended⟩
    | .error e => ⟨r.pages, .refused e⟩
  | _ => r

/-- What the client has after `n` requests. -/
def reading (serve : Endpoint τ β) (visits : Nat → Visit τ) : Nat → Reading β
  | 0 => {}
  | n + 1 => (reading serve visits n).visit serve (visits n)

/-- What a walk is promised: limits the endpoints take, and rows that stay, where they are, once they are there. -/
structure Orderly (heads : τ → List Head) (visits : Nat → Visit τ) : Prop where
  limit : ∀ n, 1 ≤ (visits n).limit ∧ (visits n).limit ≤ MAX_LIMIT
  stays : ∀ n, ∀ h ∈ heads (visits n).tables, h ∈ heads (visits (n + 1)).tables

/-- **A walk that is complete and exact**, of the rows a user sees. -/
structure Exact (heads : τ → List Head) (key : β → Position) (userId : Nat) (includeSeed : Bool) (serve : Endpoint τ β)
    (visits : Nat → Visit τ) : Prop where
  answered : ∀ n e, (reading serve visits n).follow ≠ .refused e
  /-- strictly descending, across pages -/
  descends : ∀ n, (reading serve visits n).pages.flatten.Pairwise fun a b => key b < key a
  /-- at its end, every row there was at the first read has been returned once -/
  once : ∀ n, (reading serve visits n).follow = .ended → ∀ h ∈ heads (visits 0).tables, h.visible userId includeSeed = true →
    ((reading serve visits n).pages.flatten.map key).count h.position = 1
  /-- `next_cursor` is null exactly when no row past the cursor is missing from the page -/
  last : ∀ n cursor, (reading serve visits n).follow = .request cursor →
    ∃ items next before, serve (visits n).tables (visits n).limit cursor = .ok (items, next) ∧
      cursorOf cursor = .ok before ∧
      (next = none ↔ ∀ h ∈ heads (visits n).tables, h.visible userId includeSeed = true → h.before before = true →
        h.position ∈ items.map key)
  /-- once no row is inserted, the walk ends -/
  ends : ∀ N, (∀ n, N ≤ n → ∀ h ∈ heads (visits n).tables, h ∈ heads (visits N).tables) →
    ∃ m, (reading serve visits m).follow = .ended

/-! ## A listing by keys -/

/-- A cursor, as a position of the walk. -/
inductive Names : Option String → Keyset.Pos Position → Prop
  | first : Names none .first
  | after (t : Timestamptz) (u : Uuid) : Names (some (encode t u)) (.after (position t u))

/-- The empty text is no cursor of ours: it reads back as none. -/
theorem encode_ne_empty (t : Timestamptz) (u : Uuid) : ¬ (encode t u).isEmpty := by
  intro h
  have hread := decode_encode t u
  rw [String.isEmpty_iff.1 h] at hread
  have hrefused : decode "" = .error invalidCursor := by decide
  rw [hrefused] at hread
  cases hread

/-- What a cursor that names a position is decoded to. -/
theorem Names.decodes {cursor : Option String} {pos : Keyset.Pos Position} (h : Names cursor pos) :
    ∃ before, cursorOf cursor = .ok before ∧ ∀ r : Head, r.before before = pos.past r.position := by
  cases h with
  | first => exact ⟨none, rfl, fun _ => rfl⟩
  | after t u =>
    refine ⟨some ⟨t, u⟩, ?_, fun _ => rfl⟩
    rw [cursorOf_some (encode_ne_empty t u), decode_encode]
    rfl

/-- **A page of rows by time and id is a page by key.** -/
theorem page_eq (time : β → Timestamptz) (id : β → Uuid) (limit : Nat) (rows : List β) :
    (page rows limit (fun x => time x) id).1 = (Keyset.page (fun x => position (time x) (id x)) limit rows).1 ∧
      ((page rows limit (fun x => time x) id).2 = none ∧ (Keyset.page (fun x => position (time x) (id x)) limit rows).2 = none ∨
        ∃ x, (page rows limit (fun x => time x) id).2 = some (encode (time x) (id x)) ∧
          (Keyset.page (fun x => position (time x) (id x)) limit rows).2 = some (position (time x) (id x))) := by
  unfold page Keyset.page
  by_cases hshort : rows.length ≤ limit
  · rw [if_pos hshort, if_pos hshort]
    exact ⟨rfl, .inl ⟨rfl, rfl⟩⟩
  · rw [if_neg hshort, if_neg hshort]
    refine ⟨rfl, ?_⟩
    cases hlast : (rows.take limit).getLast? with
    | none => exact .inl ⟨by simp [hlast], rfl⟩
    | some x => exact .inr ⟨x, by simp [hlast], rfl⟩

/-- What a listing needs of its endpoint: that it pages the rows the user sees, by a key of their own. -/
structure Lists (heads : τ → List Head) (userId : Nat) (includeSeed : Bool) (serve : Endpoint τ β) (time : β → Timestamptz)
    (id : β → Uuid) (items : τ → List β) : Prop where
  serves : ∀ w limit cursor pos, Names cursor pos → serve w limit cursor =
    .ok (page ((Keyset.below (fun x => position (time x) (id x)) pos (items w)).take (limit + 1)) limit (fun x => time x) id)
  keys : ∀ w, (items w).map (fun x => position (time x) (id x)) =
    ((heads w).filter (Head.visible userId includeSeed)).map Head.position
  nodup : ∀ w, ((heads w).map Head.position).Nodup

/-- Where the client is, as a position of the walk. -/
inductive Meets : Follow → Keyset.Pos Position → Prop
  | request {cursor : Option String} {pos : Keyset.Pos Position} (h : Names cursor pos) : Meets (.request cursor) pos
  | ended : Meets .ended .done

structure Follows (r : Reading β) (w : Keyset.Walk β Position) : Prop where
  pages : r.pages = w.pages
  meets : Meets r.follow w.pos

section

variable {heads : τ → List Head} {userId : Nat} {includeSeed : Bool} {serve : Endpoint τ β} {time : β → Timestamptz}
  {id : β → Uuid} {items : τ → List β} (hl : Lists heads userId includeSeed serve time id items)

include hl

/-- What a request is answered: a turn of the walk. -/
theorem Lists.turns {cursor : Option String} {pos : Keyset.Pos Position} (hc : Names cursor pos) (v : Visit τ) :
    ∃ next, serve v.tables v.limit cursor =
        .ok ((Keyset.turn (fun x => position (time x) (id x)) pos v.limit (items v.tables)).1, next) ∧
      (next = none ∧ (Keyset.turn (fun x => position (time x) (id x)) pos v.limit (items v.tables)).2 = none ∨
        ∃ (t : Timestamptz) (u : Uuid), next = some (encode t u) ∧
          (Keyset.turn (fun x => position (time x) (id x)) pos v.limit (items v.tables)).2 = some (position t u)) := by
  obtain ⟨hpage, hnext⟩ := page_eq time id v.limit
    ((Keyset.below (fun x => position (time x) (id x)) pos (items v.tables)).take (v.limit + 1))
  refine ⟨_, by rw [hl.serves _ _ _ _ hc, Keyset.turn, ← hpage], ?_⟩
  rcases hnext with ⟨hnone, hlast⟩ | ⟨x, hsome, hkey⟩
  · exact .inl ⟨hnone, hlast⟩
  · exact .inr ⟨_, _, hsome, hkey⟩

/-- **A request is a step of the walk.** -/
theorem Lists.visit {r : Reading β} {w : Keyset.Walk β Position} (h : Follows r w) (v : Visit τ) :
    Follows (r.visit serve v) (w.step (fun x => position (time x) (id x)) ⟨v.limit, items v.tables⟩) := by
  obtain ⟨pages, follow⟩ := r
  obtain ⟨pages', pos⟩ := w
  obtain ⟨rfl, hmeets⟩ := h
  cases hmeets with
  | ended =>
    rw [Keyset.Walk.step_done rfl]
    exact ⟨rfl, .ended⟩
  | @request cursor pos hc =>
    have hopen : (⟨pages, pos⟩ : Keyset.Walk β Position).pos ≠ .done := by
      intro hdone
      cases hc <;> cases hdone
    rw [Keyset.Walk.step_open hopen]
    obtain ⟨next, hserve, hnext⟩ := hl.turns hc v
    simp only [Reading.visit, hserve]
    rcases hnext with ⟨rfl, hlast⟩ | ⟨t, u, rfl, hkey⟩
    · exact ⟨rfl, by rw [hlast]; exact .ended⟩
    · exact ⟨rfl, by rw [hkey]; exact .request (.after t u)⟩

/-- **The client's reading refines the walk.** -/
theorem Lists.reading (visits : Nat → Visit τ) (n : Nat) : Follows (reading serve visits n)
    (Keyset.walk (fun x => position (time x) (id x)) (fun i => ⟨(visits i).limit, items (visits i).tables⟩) n) := by
  induction n with
  | zero => exact ⟨rfl, .request .first⟩
  | succ n ih => exact hl.visit ih (visits n)

/-- The keys a user sees are those of the rows that are the user's to see. -/
theorem Lists.mem_keys {w : τ} {k : Position} : k ∈ (items w).map (fun x => position (time x) (id x)) ↔
    ∃ h ∈ heads w, h.visible userId includeSeed = true ∧ h.position = k := by
  rw [hl.keys, List.mem_map]
  constructor
  · rintro ⟨h, hh, rfl⟩
    obtain ⟨hmem, hvisible⟩ := List.mem_filter.1 hh
    exact ⟨h, hmem, hvisible, rfl⟩
  · rintro ⟨h, hmem, hvisible, rfl⟩
    exact ⟨h, List.mem_filter.2 ⟨hmem, hvisible⟩, rfl⟩

theorem Lists.growing {visits : Nat → Visit τ} (ho : Orderly heads visits) :
    Keyset.Growing (fun x => position (time x) (id x)) fun i => ⟨(visits i).limit, items (visits i).tables⟩ where
  limit n := (ho.limit n).1
  nodup n := by
    show ((items (visits n).tables).map _).Nodup
    rw [hl.keys]
    exact (hl.nodup _).sublist (List.filter_sublist.map _)
  grows n k hk := by
    obtain ⟨h, hmem, hvisible, he⟩ := hl.mem_keys.1 hk
    exact hl.mem_keys.2 ⟨h, ho.stays n h hmem, hvisible, he⟩

/-- **A page's `next_cursor` is null exactly when no row is left.** -/
theorem Lists.last {cursor : Option String} {pos : Keyset.Pos Position} (hc : Names cursor pos) {v : Visit τ}
    (hlimit : 1 ≤ v.limit) :
    ∃ kept next before, serve v.tables v.limit cursor = .ok (kept, next) ∧ cursorOf cursor = .ok before ∧
      (next = none ↔ ∀ h ∈ heads v.tables, h.visible userId includeSeed = true → h.before before = true →
        h.position ∈ kept.map fun x => position (time x) (id x)) := by
  obtain ⟨before, hdecoded, hbefore⟩ := hc.decodes
  obtain ⟨next, hserve, hnext⟩ := hl.turns hc v
  have hnd : ((items v.tables).map fun x => position (time x) (id x)).Nodup := by
    rw [hl.keys]
    exact (hl.nodup _).sublist (List.filter_sublist.map _)
  have hcut := Keyset.cut (fun x => position (time x) (id x)) pos hlimit hnd
  generalize Keyset.turn (fun x => position (time x) (id x)) pos v.limit (items v.tables) = t at *
  refine ⟨t.1, next, before, hserve, hdecoded, ?_⟩
  have hnone : next = none ↔ t.2 = none := by
    rcases hnext with ⟨rfl, hlast⟩ | ⟨_, _, rfl, hkey⟩
    · simp [hlast]
    · simp [hkey]
  rw [hnone, hcut.last]
  constructor
  · intro h r hr hvisible hpast
    obtain ⟨x, hx, he⟩ := List.mem_map.1 (hl.mem_keys.2 ⟨r, hr, hvisible, rfl⟩)
    rw [hbefore, ← he] at hpast
    rw [← he]
    exact List.mem_map_of_mem (h x hx hpast)
  · intro h x hx hpast
    obtain ⟨r, hr, hvisible, he⟩ := hl.mem_keys.1 (List.mem_map_of_mem hx)
    have hmem := h r hr hvisible (by rw [hbefore, he]; exact hpast)
    obtain ⟨y, hy, hye⟩ := List.mem_map.1 hmem
    have hsame : y = x := List.inj_on_of_nodup_map hnd (hcut.mem y hy).1 hx (hye.trans he)
    rwa [← hsame]

/-- **A listing's walk is complete and exact.** -/
theorem Lists.exact {visits : Nat → Visit τ} (ho : Orderly heads visits) :
    Exact heads (fun x => position (time x) (id x)) userId includeSeed serve visits := by
  have hgrowing := hl.growing ho
  have hfollows := hl.reading visits
  constructor
  · intro n e he
    have hmeets := (hfollows n).meets
    rw [he] at hmeets
    cases hmeets
  · intro n
    rw [(hfollows n).pages]
    exact (hgrowing.exact n).descends
  · intro n hended h hmem hvisible
    have hexact := hgrowing.exact n
    have hmeets := (hfollows n).meets
    rw [(hfollows n).pages]
    rw [hended] at hmeets
    generalize Keyset.walk (fun x => position (time x) (id x)) (fun i => ⟨(visits i).limit, items (visits i).tables⟩) n = w
      at hexact hmeets
    obtain ⟨pages, pos⟩ := w
    cases hmeets
    have hnodup : (pages.flatten.map fun x => position (time x) (id x)).Nodup :=
      List.pairwise_map.2 (hexact.descends.imp fun hlt => (ne_of_lt hlt).symm)
    exact List.count_eq_one_of_mem hnodup (hexact.covered _ (hl.mem_keys.2 ⟨h, hmem, hvisible, rfl⟩) rfl)
  · intro n cursor hcursor
    have hmeets := (hfollows n).meets
    rw [hcursor] at hmeets
    cases hmeets with
    | request hc => exact hl.last hc (ho.limit n).1
  · intro N hstill
    obtain ⟨m, -, hdone⟩ := hgrowing.ends (N := N) (fun n hn k hk => by
      obtain ⟨h, hmem, hvisible, he⟩ := hl.mem_keys.1 hk
      exact hl.mem_keys.2 ⟨h, hstill n hn h hmem, hvisible, he⟩)
    refine ⟨m, ?_⟩
    have hmeets := (hfollows m).meets
    rw [hdone] at hmeets
    generalize (Paging.reading serve visits m).follow = f at hmeets ⊢
    cases hmeets with
    | request hc => cases hc
    | ended => rfl

end

end Paging
end SafeSend
