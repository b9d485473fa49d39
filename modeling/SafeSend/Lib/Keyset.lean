import Mathlib.Order.Lattice
import Mathlib.Data.List.Basic
import Mathlib.Tactic.Common
/-!
# Keyset pagination

A listing in descending order of a key, read a page at a time: each page is fetched from past a position, with one row
over, and ends at the position the next is fetched from.  Rows may come between the reads.
-/
namespace Lib
namespace Keyset

/-- Where a walk stands: before the first page, past a key, or at the end. -/
inductive Pos (κ : Type)
  | first
  | after (c : κ)
  | done
  deriving DecidableEq

variable {α κ : Type} [LinearOrder κ] (key : α → κ)

/-- Whether a key is past a position. -/
def Pos.past : Pos κ → κ → Bool
  | .first, _ => true
  | .after c, k => decide (k < c)
  | .done, _ => false

def Pos.ofNext : Option κ → Pos κ
  | none => .done
  | some c => .after c

/-- Past a position is below all that is not. -/
theorem Pos.past_lt {pos : Pos κ} {k k' : κ} (h' : pos.past k' = true) (h : pos.past k = false) : k' < k := by
  cases pos with
  | first => cases h
  | after c => exact (of_decide_eq_true h').trans_le (not_lt.1 (of_decide_eq_false h))
  | done => cases h'

/-- The rows past a position, the largest key first. -/
def below (pos : Pos κ) (rows : List α) : List α :=
  (rows.filter fun r => pos.past (key r)).mergeSort fun a b => decide (key b ≤ key a)

/-- What was fetched without the row over, and the next position where there was one. -/
def page (limit : Nat) (fetched : List α) : List α × Option κ :=
  if fetched.length ≤ limit then (fetched, none)
  else (fetched.take limit, (fetched.take limit).getLast?.map key)

/-- One read. -/
def turn (pos : Pos κ) (limit : Nat) (rows : List α) : List α × Option κ :=
  page key limit ((below key pos rows).take (limit + 1))

theorem mem_below {pos : Pos κ} {rows : List α} {r : α} :
    r ∈ below key pos rows ↔ r ∈ rows ∧ pos.past (key r) = true := by
  rw [below, List.mem_mergeSort, List.mem_filter]

/-- **Of rows with keys of their own the order is strict.** -/
theorem below_descends (pos : Pos κ) {rows : List α} (hnd : (rows.map key).Nodup) :
    (below key pos rows).Pairwise fun a b => key b < key a := by
  have hle : (below key pos rows).Pairwise fun a b => decide (key b ≤ key a) = true := by
    apply List.pairwise_mergeSort
    · intro a b c hab hbc
      exact decide_eq_true ((of_decide_eq_true hbc).trans (of_decide_eq_true hab))
    · intro a b
      rw [Bool.or_eq_true, decide_eq_true_eq, decide_eq_true_eq]
      exact le_total _ _
  have hne : (below key pos rows).Pairwise fun a b => key a ≠ key b := by
    have hfiltered : ((rows.filter fun r => pos.past (key r)).map key).Nodup :=
      hnd.sublist ((List.filter_sublist).map key)
    have hperm := (List.mergeSort_perm (rows.filter fun r => pos.past (key r)) fun a b => decide (key b ≤ key a)).map key
    exact List.pairwise_map.1 (hperm.nodup_iff.2 hfiltered)
  exact hle.imp₂ (fun a b hab hn => lt_of_le_of_ne (of_decide_eq_true hab) (Ne.symm hn)) hne

/-- The row over says whether the page is the last. -/
theorem turn_eq (pos : Pos κ) (limit : Nat) (rows : List α) :
    turn key pos limit rows =
      if (below key pos rows).length ≤ limit then (below key pos rows, none)
      else ((below key pos rows).take limit, ((below key pos rows).take limit).getLast?.map key) := by
  unfold turn page
  rw [List.length_take, List.take_take, Nat.min_eq_left (Nat.le_succ limit)]
  by_cases h : (below key pos rows).length ≤ limit
  · rw [if_pos h, if_pos (by omega), List.take_of_length_le (by omega)]
  · rw [if_neg h, if_neg (by omega)]

/-- What a page is of the rows it was read from. -/
structure Cut (pos : Pos κ) (rows kept : List α) (next : Option κ) : Prop where
  descends : kept.Pairwise fun a b => key b < key a
  mem : ∀ r ∈ kept, r ∈ rows ∧ pos.past (key r) = true
  passed : ∀ r ∈ kept, (Pos.ofNext next).past (key r) = false
  whole : ∀ r ∈ rows, pos.past (key r) = true → (Pos.ofNext next).past (key r) = false → r ∈ kept
  onward : ∀ k, (Pos.ofNext next).past k = true → pos.past k = true
  last : next = none ↔ ∀ r ∈ rows, pos.past (key r) = true → r ∈ kept
  moves : next ≠ none → kept ≠ []

theorem least_getLast {l : List α} (h : l.Pairwise fun a b => key b < key a) {z : α} (hz : l.getLast? = some z) :
    ∀ r ∈ l, key z ≤ key r := by
  obtain ⟨front, rfl⟩ := List.getLast?_eq_some_iff.1 hz
  intro r hr
  rw [List.mem_append, List.mem_singleton] at hr
  rcases hr with hr | rfl
  · exact ((List.pairwise_append.1 h).2.2 r hr z (List.mem_singleton.2 rfl)).le
  · exact le_rfl

/-- **A page is cut from the front of what is past the position**, and names its last row. -/
theorem cut (pos : Pos κ) {limit : Nat} {rows : List α} (hlimit : 1 ≤ limit) (hnd : (rows.map key).Nodup) :
    Cut key pos rows (turn key pos limit rows).1 (turn key pos limit rows).2 := by
  have hsorted := below_descends key pos hnd
  rw [turn_eq]
  by_cases hshort : (below key pos rows).length ≤ limit
  · rw [if_pos hshort]
    exact {
      descends := hsorted
      mem := fun r hr => (mem_below key).1 hr
      passed := fun _ _ => rfl
      whole := fun r hr hp _ => (mem_below key).2 ⟨hr, hp⟩
      onward := fun _ hk => by cases hk
      last := ⟨fun _ r hr hp => (mem_below key).2 ⟨hr, hp⟩, fun _ => rfl⟩
      moves := fun h => absurd rfl h }
  · rw [if_neg hshort]
    have hmem : ∀ r, r ∈ below key pos rows ↔ r ∈ rows ∧ pos.past (key r) = true := fun r => mem_below key
    generalize below key pos rows = l at *
    have hlong : limit < l.length := Nat.lt_of_not_le hshort
    have hkept : (l.take limit).Pairwise fun a b => key b < key a := hsorted.sublist (List.take_sublist _ _)
    have hlen : (l.take limit).length = limit := by rw [List.length_take]; omega
    have hne : l.take limit ≠ [] := by
      intro h
      rw [h, List.length_nil] at hlen
      omega
    obtain ⟨z, hz⟩ : ∃ z, (l.take limit).getLast? = some z := ⟨_, List.getLast?_eq_some_getLast hne⟩
    have hzmem : z ∈ l.take limit := List.mem_of_getLast? hz
    -- the page's last row is its least, and what is left of the fetch is below it
    have hleast := least_getLast key hkept hz
    have hrest : ∀ r ∈ l.drop limit, key r < key z := by
      have happend : (l.take limit ++ l.drop limit).Pairwise fun a b => key b < key a := by
        rwa [List.take_append_drop]
      exact fun r hr => (List.pairwise_append.1 happend).2.2 z hzmem r hr
    have hsplit : ∀ r ∈ l, r ∈ l.take limit ∨ r ∈ l.drop limit := fun r hr =>
      List.mem_append.1 (by rw [List.take_append_drop]; exact hr)
    obtain ⟨x, hx⟩ : ∃ x, x ∈ l.drop limit := List.exists_mem_of_ne_nil _ (by
      intro h
      have hzero := congrArg List.length h
      rw [List.length_drop, List.length_nil] at hzero
      omega)
    rw [hz]
    exact {
      descends := hkept
      mem := fun r hr => (hmem r).1 (List.mem_of_mem_take hr)
      passed := fun r hr => decide_eq_false (not_lt.2 (hleast r hr))
      whole := by
        intro r hr hp hpassed
        rcases hsplit r ((hmem r).2 ⟨hr, hp⟩) with h | h
        · exact h
        · exact absurd (hrest r h) (of_decide_eq_false hpassed)
      onward := by
        intro k hk
        have hpast := ((hmem z).1 (List.mem_of_mem_take hzmem)).2
        have hlt : k < key z := of_decide_eq_true hk
        cases pos with
        | first => rfl
        | after c => exact decide_eq_true (hlt.trans (of_decide_eq_true hpast))
        | done => exact hpast
      last := by
        constructor
        · intro h
          cases h
        · intro h
          have hxl := (hmem x).1 (List.mem_of_mem_drop hx)
          exact absurd (hrest x hx) (not_lt.2 (hleast x (h x hxl.1 hxl.2)))
      moves := fun _ => hne }

/-! ## A walk -/

structure Walk (α κ : Type) where
  pages : List (List α) := []
  pos : Pos κ := .first

/-- A read's limit, and the rows there are at the time. -/
structure Read (α : Type) where
  limit : Nat
  rows : List α

def Walk.step (w : Walk α κ) (x : Read α) : Walk α κ :=
  match w.pos with
  | .done => w
  | pos => ⟨w.pages ++ [(turn key pos x.limit x.rows).1], .ofNext (turn key pos x.limit x.rows).2⟩

/-- The walk after `n` reads. -/
def walk (reads : Nat → Read α) : Nat → Walk α κ
  | 0 => {}
  | n + 1 => (walk reads n).step key (reads n)

variable {key}

theorem Walk.step_done {w : Walk α κ} (h : w.pos = .done) (x : Read α) : w.step key x = w := by
  unfold Walk.step
  rw [h]

theorem Walk.step_open {w : Walk α κ} (h : w.pos ≠ .done) (x : Read α) :
    w.step key x = ⟨w.pages ++ [(turn key w.pos x.limit x.rows).1], .ofNext (turn key w.pos x.limit x.rows).2⟩ := by
  obtain ⟨pages, pos⟩ := w
  cases pos with
  | first => rfl
  | after c => rfl
  | done => exact absurd rfl h

variable (key) in
/-- Of the rows known from the start, a walk has returned those its position has passed, in order. -/
structure Exact (known : List κ) (w : Walk α κ) : Prop where
  descends : w.pages.flatten.Pairwise fun a b => key b < key a
  passed : ∀ r ∈ w.pages.flatten, w.pos.past (key r) = false
  covered : ∀ k ∈ known, w.pos.past k = false → k ∈ w.pages.flatten.map key

theorem Exact.start (known : List κ) : Exact key known {} where
  descends := List.Pairwise.nil
  passed := fun r hr => by cases hr
  covered := fun k _ hk => by cases hk

/-- **A read keeps it**, of rows that have the known ones among them. -/
theorem Exact.step {known : List κ} {w : Walk α κ} (h : Exact key known w) {x : Read α} (hlimit : 1 ≤ x.limit)
    (hnd : (x.rows.map key).Nodup) (hknown : ∀ k ∈ known, k ∈ x.rows.map key) : Exact key known (w.step key x) := by
  by_cases hdone : w.pos = .done
  · rwa [Walk.step_done hdone]
  · rw [Walk.step_open hdone]
    have hcut := cut key w.pos hlimit hnd
    generalize turn key w.pos x.limit x.rows = t at hcut
    have hflat : (w.pages ++ [t.1]).flatten = w.pages.flatten ++ t.1 := by
      rw [List.flatten_append, List.flatten_singleton]
    have hstay : ∀ k, w.pos.past k = false → (Pos.ofNext t.2).past k = false := by
      intro k hk
      by_cases hpast : (Pos.ofNext t.2).past k = true
      · rw [hcut.onward k hpast] at hk
        cases hk
      · exact Bool.eq_false_iff.2 hpast
    constructor
    · show (w.pages ++ [t.1]).flatten.Pairwise _
      rw [hflat, List.pairwise_append]
      exact ⟨h.descends, hcut.descends, fun a ha b hb => Pos.past_lt (hcut.mem b hb).2 (h.passed a ha)⟩
    · show ∀ r ∈ (w.pages ++ [t.1]).flatten, (Pos.ofNext t.2).past (key r) = false
      rw [hflat]
      intro r hr
      rcases List.mem_append.1 hr with hr | hr
      · exact hstay _ (h.passed r hr)
      · exact hcut.passed r hr
    · show ∀ k ∈ known, (Pos.ofNext t.2).past k = false → k ∈ (w.pages ++ [t.1]).flatten.map key
      rw [hflat, List.map_append]
      intro k hk hpassed
      rw [List.mem_append]
      by_cases hpast : w.pos.past k = true
      · obtain ⟨r, hr, rfl⟩ := List.mem_map.1 (hknown k hk)
        exact .inr (List.mem_map_of_mem (hcut.whole r hr hpast hpassed))
      · exact .inl (h.covered k hk (Bool.eq_false_iff.2 hpast))

variable (key) in
/-- What is asked of the reads: a row a page, keys of their own, and no row lost between one and the next. -/
structure Growing (reads : Nat → Read α) : Prop where
  limit : ∀ n, 1 ≤ (reads n).limit
  nodup : ∀ n, ((reads n).rows.map key).Nodup
  grows : ∀ n, ∀ k ∈ (reads n).rows.map key, k ∈ (reads (n + 1)).rows.map key

variable {reads : Nat → Read α} (h : Growing key reads)

omit [LinearOrder κ] in
include h in
theorem Growing.le {m n : Nat} (hmn : m ≤ n) {k : κ} (hk : k ∈ (reads m).rows.map key) : k ∈ (reads n).rows.map key := by
  induction hmn with
  | refl => exact hk
  | step _ ih => exact h.grows _ k ih

include h in
/-- **In every walk.** -/
theorem Growing.exact (n : Nat) : Exact key ((reads 0).rows.map key) (walk key reads n) := by
  induction n with
  | zero => exact .start _
  | succ n ih => exact ih.step (h.limit n) (h.nodup n) (fun k hk => h.le (Nat.zero_le n) hk)

/-- How many of some keys are still to come. -/
def Pos.ahead (pos : Pos κ) (keys : List κ) : Nat := (keys.filter pos.past).length

/-- **A page that is not the last passes a key.** -/
theorem ahead_lt {pos : Pos κ} {x : Read α} {keys : List κ} (hlimit : 1 ≤ x.limit) (hnd : (x.rows.map key).Nodup)
    (hkeys : ∀ k ∈ x.rows.map key, k ∈ keys) (hnext : (turn key pos x.limit x.rows).2 ≠ none) :
    (Pos.ofNext (turn key pos x.limit x.rows).2).ahead keys < pos.ahead keys := by
  have hcut := cut key pos hlimit hnd
  obtain ⟨r, hr⟩ := List.exists_mem_of_ne_nil _ (hcut.moves hnext)
  have hfilter : keys.filter (Pos.ofNext (turn key pos x.limit x.rows).2).past =
      (keys.filter pos.past).filter (Pos.ofNext (turn key pos x.limit x.rows).2).past := by
    rw [List.filter_filter]
    apply List.filter_congr
    intro k _
    by_cases hk : (Pos.ofNext (turn key pos x.limit x.rows).2).past k = true
    · rw [hk, hcut.onward k hk]
      rfl
    · rw [Bool.eq_false_iff.2 hk]
      rfl
  unfold Pos.ahead
  rw [hfilter, List.length_filter_lt_length_iff_exists]
  refine ⟨key r, List.mem_filter.2 ⟨hkeys _ (List.mem_map_of_mem (hcut.mem r hr).1), (hcut.mem r hr).2⟩, ?_⟩
  rw [hcut.passed r hr]
  exact Bool.false_ne_true

include h in
/-- **Once no row comes, the walk ends**, within as many reads as there are rows, and one. -/
theorem Growing.ends {N : Nat} (hstill : ∀ n, N ≤ n → ∀ k ∈ (reads n).rows.map key, k ∈ (reads N).rows.map key) :
    ∃ m, m ≤ N + (reads N).rows.length + 1 ∧ (walk key reads m).pos = .done := by
  have hstep : ∀ n, N ≤ n → (walk key reads n).pos ≠ .done → (walk key reads (n + 1)).pos = .done ∨
      (walk key reads (n + 1)).pos.ahead ((reads N).rows.map key) <
        (walk key reads n).pos.ahead ((reads N).rows.map key) := by
    intro n hn hopen
    rw [walk, Walk.step_open hopen]
    by_cases hnext : (turn key (walk key reads n).pos (reads n).limit (reads n).rows).2 = none
    · rw [hnext]
      exact .inl rfl
    · exact .inr (ahead_lt (h.limit n) (h.nodup n) (hstill n hn) hnext)
  have hends : ∀ fuel n, N ≤ n → (walk key reads n).pos.ahead ((reads N).rows.map key) ≤ fuel →
      ∃ m, m ≤ n + fuel + 1 ∧ (walk key reads m).pos = .done := by
    intro fuel
    induction fuel with
    | zero =>
      intro n hn hahead
      by_cases hdone : (walk key reads n).pos = .done
      · exact ⟨n, by omega, hdone⟩
      · rcases hstep n hn hdone with hnext | hlt
        · exact ⟨n + 1, by omega, hnext⟩
        · omega
    | succ fuel ih =>
      intro n hn hahead
      by_cases hdone : (walk key reads n).pos = .done
      · exact ⟨n, by omega, hdone⟩
      · rcases hstep n hn hdone with hnext | hlt
        · exact ⟨n + 1, by omega, hnext⟩
        · obtain ⟨m, hm, hd⟩ := ih (n + 1) (by omega) (by omega)
          exact ⟨m, by omega, hd⟩
  have hlength : (walk key reads N).pos.ahead ((reads N).rows.map key) ≤ (reads N).rows.length := by
    have hle := List.length_filter_le (walk key reads N).pos.past ((reads N).rows.map key)
    rwa [List.length_map] at hle
  exact hends _ N (Nat.le_refl N) hlength

end Keyset
end Lib
