import Mathlib.Data.Finset.Card
import Mathlib.Data.List.Pairwise
/-!
# Tables

A table numbers its rows as they are inserted and forgets no number: the rows are a lookup that is empty from `next` on,
and the field `beyond` says so.  `modify` is an update of one row, `updateWhere` an update guarded by a condition on the
row (a compare-and-swap: `affected` is whether it matched), `erase` a deletion.
-/
namespace Lib

structure Table (α : Type) where
  next : Nat
  get : Nat → Option α
  beyond : ∀ n, next ≤ n → get n = none

namespace Table

variable {α : Type}

def empty : Table α := ⟨0, fun _ => none, fun _ _ => rfl⟩

/-- A new row, under the next number. -/
def insert (t : Table α) (a : α) : Table α where
  next := t.next + 1
  get n := if n = t.next then some a else t.get n
  beyond n h := by
    rw [if_neg (by omega)]
    exact t.beyond n (by omega)

def modify (t : Table α) (k : Nat) (f : α → α) : Table α where
  next := t.next
  get n := if n = k then (t.get n).map f else t.get n
  beyond n h := by
    rw [t.beyond n h]
    simp

/-- `UPDATE … WHERE id = k AND p`: a compare-and-swap. -/
def updateWhere (t : Table α) (k : Nat) (p : α → Bool) (f : α → α) : Table α :=
  t.modify k fun a => if p a then f a else a

/-- `UPDATE` of the rows whose numbers match. -/
def updateAll (t : Table α) (p : Nat → Bool) (f : α → α) : Table α where
  next := t.next
  get n := if p n then (t.get n).map f else t.get n
  beyond n h := by
    rw [t.beyond n h]
    simp

/-- The row count of a guarded update is one. -/
def affected (t : Table α) (k : Nat) (p : α → Bool) : Bool := (t.get k).any p

def erase (t : Table α) (k : Nat) : Table α where
  next := t.next
  get n := if n = k then none else t.get n
  beyond n h := by
    rw [t.beyond n h]
    simp

/-- A deletion of the rows that do not match. -/
def retain (t : Table α) (p : α → Bool) : Table α where
  next := t.next
  get n := (t.get n).filter p
  beyond n h := by
    rw [t.beyond n h]
    rfl

/-- The rows with their numbers, in the order they were inserted. -/
def rows (t : Table α) : List (Nat × α) :=
  (List.range t.next).filterMap fun n => (t.get n).map fun a => (n, a)

def any (t : Table α) (p : Nat → α → Bool) : Bool := t.rows.any fun r => p r.1 r.2

/-- `ORDER BY id DESC LIMIT 1` among the rows that match. -/
def latest (t : Table α) (p : Nat → α → Bool) : Option (Nat × α) :=
  (t.rows.filter fun r => p r.1 r.2).getLast?

/-- `ORDER BY id LIMIT 1` among the rows that match. -/
def first (t : Table α) (p : Nat → α → Bool) : Option (Nat × α) := t.rows.find? fun r => p r.1 r.2

/-- The numbers of the rows that match. -/
def hits (t : Table α) (p : α → Bool) : Finset Nat := (Finset.range t.next).filter fun n => (t.get n).any p

@[simp] theorem get_empty (n : Nat) : (empty : Table α).get n = none := rfl

@[simp] theorem next_empty : (empty : Table α).next = 0 := rfl

@[simp] theorem next_insert (t : Table α) (a : α) : (t.insert a).next = t.next + 1 := rfl

@[simp] theorem next_modify (t : Table α) (k : Nat) (f : α → α) : (t.modify k f).next = t.next := rfl

@[simp] theorem next_updateWhere (t : Table α) (k : Nat) (p : α → Bool) (f : α → α) :
    (t.updateWhere k p f).next = t.next := rfl

@[simp] theorem next_erase (t : Table α) (k : Nat) : (t.erase k).next = t.next := rfl

theorem get_insert (t : Table α) (a : α) (n : Nat) :
    (t.insert a).get n = if n = t.next then some a else t.get n := rfl

theorem get_modify (t : Table α) (k : Nat) (f : α → α) (n : Nat) :
    (t.modify k f).get n = if n = k then (t.get n).map f else t.get n := rfl

theorem get_erase (t : Table α) (k n : Nat) : (t.erase k).get n = if n = k then none else t.get n := rfl

@[simp] theorem get_insert_self (t : Table α) (a : α) : (t.insert a).get t.next = some a := if_pos rfl

@[simp] theorem get_modify_self (t : Table α) (k : Nat) (f : α → α) : (t.modify k f).get k = (t.get k).map f := if_pos rfl

@[simp] theorem get_erase_self (t : Table α) (k : Nat) : (t.erase k).get k = none := if_pos rfl

theorem get_insert_of_ne (t : Table α) (a : α) {n : Nat} (h : n ≠ t.next) : (t.insert a).get n = t.get n := if_neg h

theorem get_modify_of_ne (t : Table α) {k n : Nat} (f : α → α) (h : n ≠ k) : (t.modify k f).get n = t.get n := if_neg h

theorem get_erase_of_ne (t : Table α) {k n : Nat} (h : n ≠ k) : (t.erase k).get n = t.get n := if_neg h

@[simp] theorem get_updateWhere_self (t : Table α) (k : Nat) (p : α → Bool) (f : α → α) :
    (t.updateWhere k p f).get k = (t.get k).map fun a => if p a then f a else a := get_modify_self t k _

theorem get_updateWhere_of_ne (t : Table α) {k n : Nat} (p : α → Bool) (f : α → α) (h : n ≠ k) :
    (t.updateWhere k p f).get n = t.get n := get_modify_of_ne t _ h

theorem lt_next_of_get {t : Table α} {n : Nat} {a : α} (h : t.get n = some a) : n < t.next := by
  by_contra hn
  rw [t.beyond n (by omega)] at h
  cases h

theorem get_next (t : Table α) : t.get t.next = none := t.beyond _ (Nat.le_refl _)

/-- A row that was there is there after an insertion. -/
theorem get_insert_of_get {t : Table α} (b : α) {n : Nat} {a : α} (h : t.get n = some a) :
    (t.insert b).get n = some a := by
  rw [get_insert_of_ne t b (Nat.ne_of_lt (lt_next_of_get h)), h]

/-- An inserted table's row is the new one or an old one. -/
theorem get_insert_cases {t : Table α} {b : α} {n : Nat} {a : α} (h : (t.insert b).get n = some a) :
    (n = t.next ∧ a = b) ∨ (n ≠ t.next ∧ t.get n = some a) := by
  by_cases hn : n = t.next
  · subst hn
    simp only [get_insert_self, Option.some.injEq] at h
    exact .inl ⟨rfl, h.symm⟩
  · rw [get_insert_of_ne t b hn] at h
    exact .inr ⟨hn, h⟩

/-- A modified table's row comes from the row of the same number. -/
theorem get_modify_cases {t : Table α} {k : Nat} {f : α → α} {n : Nat} {a : α} (h : (t.modify k f).get n = some a) :
    (n = k ∧ ∃ b, t.get n = some b ∧ a = f b) ∨ (n ≠ k ∧ t.get n = some a) := by
  by_cases hn : n = k
  · subst hn
    rw [get_modify_self, Option.map_eq_some_iff] at h
    obtain ⟨b, hb, hf⟩ := h
    exact .inl ⟨rfl, b, hb, hf.symm⟩
  · rw [get_modify_of_ne t f hn] at h
    exact .inr ⟨hn, h⟩

/-- An update leaves a row as it is, or the row is the one it names. -/
theorem get_modify_or (t : Table α) (k : Nat) (f : α → α) (n : Nat) :
    (t.modify k f).get n = t.get n ∨ n = k ∧ ∃ a, t.get n = some a ∧ (t.modify k f).get n = some (f a) := by
  by_cases hn : n = k
  · subst hn
    rw [get_modify_self]
    cases ha : t.get n with
    | none => exact .inl rfl
    | some a => exact .inr ⟨rfl, a, rfl, rfl⟩
  · exact .inl (get_modify_of_ne t f hn)

/-- A guarded update leaves a row as it is, or the row is the one it names and satisfies the guard. -/
theorem get_updateWhere_cases (t : Table α) (k : Nat) (p : α → Bool) (f : α → α) (n : Nat) :
    (t.updateWhere k p f).get n = t.get n ∨
      n = k ∧ ∃ a, t.get n = some a ∧ p a = true ∧ (t.updateWhere k p f).get n = some (f a) := by
  by_cases hn : n = k
  · subst hn
    rw [get_updateWhere_self]
    cases ha : t.get n with
    | none => exact .inl rfl
    | some a =>
      by_cases hp : p a = true
      · exact .inr ⟨rfl, a, rfl, hp, by rw [Option.map_some, if_pos hp]⟩
      · exact .inl (by rw [Option.map_some, if_neg hp])
  · exact .inl (get_updateWhere_of_ne t p f hn)

theorem get_updateWhere_hit {t : Table α} {k : Nat} {p : α → Bool} {a : α} (f : α → α) (ha : t.get k = some a)
    (hp : p a = true) : (t.updateWhere k p f).get k = some (f a) := by
  rw [get_updateWhere_self, ha, Option.map_some, if_pos hp]

theorem get_updateWhere_miss {t : Table α} {k : Nat} {p : α → Bool} {a : α} (f : α → α) (ha : t.get k = some a)
    (hp : p a = false) : (t.updateWhere k p f).get k = some a := by
  rw [get_updateWhere_self, ha, Option.map_some, if_neg (by rw [hp]; exact Bool.false_ne_true)]

theorem affected_iff {t : Table α} {k : Nat} {p : α → Bool} :
    t.affected k p = true ↔ ∃ a, t.get k = some a ∧ p a = true := by
  unfold affected
  cases t.get k with
  | none => simp
  | some a => simp

@[simp] theorem next_updateAll (t : Table α) (p : Nat → Bool) (f : α → α) : (t.updateAll p f).next = t.next := rfl

theorem get_updateAll (t : Table α) (p : Nat → Bool) (f : α → α) (n : Nat) :
    (t.updateAll p f).get n = if p n then (t.get n).map f else t.get n := rfl

@[simp] theorem next_retain (t : Table α) (p : α → Bool) : (t.retain p).next = t.next := rfl

theorem get_retain (t : Table α) (p : α → Bool) (n : Nat) : (t.retain p).get n = (t.get n).filter p := rfl

theorem isSome_get_modify (t : Table α) (k : Nat) (f : α → α) (n : Nat) :
    ((t.modify k f).get n).isSome = (t.get n).isSome := by
  rw [get_modify]
  split <;> simp

theorem mem_rows {t : Table α} {n : Nat} {a : α} : (n, a) ∈ t.rows ↔ t.get n = some a := by
  unfold rows
  rw [List.mem_filterMap]
  constructor
  · rintro ⟨i, -, hi⟩
    rw [Option.map_eq_some_iff] at hi
    obtain ⟨b, hb, he⟩ := hi
    obtain ⟨rfl, rfl⟩ := Prod.mk.inj he
    exact hb
  · intro h
    exact ⟨n, List.mem_range.2 (lt_next_of_get h), by rw [h]; rfl⟩

theorem rows_insert (t : Table α) (a : α) : (t.insert a).rows = t.rows ++ [(t.next, a)] := by
  have hold : (List.range t.next).filterMap (fun n => ((t.insert a).get n).map fun b => (n, b)) = t.rows := by
    refine List.filterMap_congr fun n hn => ?_
    rw [get_insert_of_ne t a (Nat.ne_of_lt (List.mem_range.1 hn))]
  unfold rows at hold ⊢
  rw [next_insert, List.range_succ, List.filterMap_append, hold]
  congr 1
  rw [List.filterMap_cons_some (by rw [get_insert_self]; rfl), List.filterMap_nil]

theorem rows_erase (t : Table α) (k : Nat) : (t.erase k).rows = t.rows.filter fun r => r.1 != k := by
  unfold rows
  rw [List.filter_filterMap, next_erase]
  refine List.filterMap_congr fun n _ => ?_
  rw [get_erase]
  split
  · rename_i hn
    cases t.get n with
    | none => rfl
    | some a => simp [Option.filter, hn]
  · rename_i hn
    cases t.get n with
    | none => rfl
    | some a => simp [Option.filter, hn]

theorem rows_sorted (t : Table α) : t.rows.Pairwise fun a b => a.1 < b.1 := by
  unfold rows
  rw [List.pairwise_filterMap]
  refine List.pairwise_lt_range.imp ?_
  intro i j hij x hx y hy
  rw [Option.map_eq_some_iff] at hx hy
  obtain ⟨-, -, rfl⟩ := hx
  obtain ⟨-, -, rfl⟩ := hy
  exact hij

theorem any_eq_true {t : Table α} {p : Nat → α → Bool} : t.any p = true ↔ ∃ n a, t.get n = some a ∧ p n a = true := by
  unfold any
  rw [List.any_eq_true]
  constructor
  · rintro ⟨⟨n, a⟩, hm, hp⟩
    exact ⟨n, a, mem_rows.1 hm, hp⟩
  · rintro ⟨n, a, hg, hp⟩
    exact ⟨(n, a), mem_rows.2 hg, hp⟩

theorem any_eq_false {t : Table α} {p : Nat → α → Bool} :
    t.any p = false ↔ ∀ n a, t.get n = some a → p n a = false := by
  rw [← Bool.not_eq_true, any_eq_true]
  constructor
  · intro h n a hg
    exact Bool.eq_false_iff.2 fun hp => h ⟨n, a, hg, hp⟩
  · rintro h ⟨n, a, hg, hp⟩
    rw [h n a hg] at hp
    cases hp

theorem first_eq_some {t : Table α} {p : Nat → α → Bool} {n : Nat} {a : α} (h : t.first p = some (n, a)) :
    t.get n = some a ∧ p n a = true :=
  ⟨mem_rows.1 (List.mem_of_find?_eq_some h), List.find?_some (p := fun r : Nat × α => p r.1 r.2) h⟩

theorem first_eq_none {t : Table α} {p : Nat → α → Bool} (h : t.first p = none) :
    ∀ n a, t.get n = some a → p n a = false := by
  intro n a hg
  exact Bool.eq_false_iff.2 (List.find?_eq_none.1 h (n, a) (mem_rows.2 hg))

/-- **The latest row that matches is there, matches, and none after it matches.** -/
theorem latest_eq_some {t : Table α} {p : Nat → α → Bool} {n : Nat} {a : α} (h : t.latest p = some (n, a)) :
    t.get n = some a ∧ p n a = true ∧ ∀ k b, t.get k = some b → p k b = true → k ≤ n := by
  unfold latest at h
  obtain ⟨ys, hys⟩ := List.getLast?_eq_some_iff.1 h
  have hm : (n, a) ∈ t.rows.filter fun r => p r.1 r.2 := by rw [hys]; simp
  obtain ⟨hrow, hp⟩ := List.mem_filter.1 hm
  refine ⟨mem_rows.1 hrow, hp, fun k b hk hpk => ?_⟩
  have hkm : (k, b) ∈ t.rows.filter fun r => p r.1 r.2 := List.mem_filter.2 ⟨mem_rows.2 hk, hpk⟩
  have hs := (t.rows_sorted.filter fun r => p r.1 r.2)
  rw [hys] at hkm hs
  rcases List.mem_append.1 hkm with hl | hr
  · exact Nat.le_of_lt ((List.pairwise_append.1 hs).2.2 _ hl (n, a) (List.mem_singleton.2 rfl))
  · rw [List.mem_singleton] at hr
    exact Nat.le_of_eq (Prod.mk.inj hr).1

/-! ## Unique indexes -/

section UniqueOn

variable {κ : Type}

/-- A partial unique index: no two rows have one key, and it covers no row without one. -/
def UniqueOn (t : Table α) (key : α → Option κ) : Prop := (t.rows.filterMap fun r => key r.2).Nodup

instance [DecidableEq κ] (t : Table α) (key : α → Option κ) : Decidable (t.UniqueOn key) :=
  inferInstanceAs (Decidable (List.Nodup _))

variable {t : Table α} {key : α → Option κ}

theorem uniqueOn_iff :
    t.UniqueOn key ↔ ∀ m n a b k, t.get m = some a → t.get n = some b → key a = some k → key b = some k → m = n := by
  unfold UniqueOn List.Nodup
  rw [List.pairwise_filterMap]
  constructor
  · intro h m n a b k ha hb hka hkb
    by_contra hne
    have : Std.Symm fun x y : Nat × α => ∀ i, key x.2 = some i → ∀ j, key y.2 = some j → i ≠ j :=
      ⟨fun _ _ hxy i hi j hj hij => hxy j hj i hi hij.symm⟩
    exact h.forall (mem_rows.2 ha) (mem_rows.2 hb) (fun he => hne (congrArg Prod.fst he)) k hka k hkb rfl
  · intro h
    refine t.rows_sorted.imp_of_mem fun {x y} hx hy hlt i hi j hj hij => ?_
    have hxy := h x.1 y.1 x.2 y.2 i (mem_rows.1 hx) (mem_rows.1 hy) hi (hij ▸ hj)
    omega

/-- An update under which a row keeps its key or loses it keeps the index. -/
theorem UniqueOn.updateWhere (h : t.UniqueOn key) {n : Nat} {p : α → Bool} {f : α → α}
    (hf : ∀ a, t.get n = some a → p a = true → key (f a) = none ∨ key (f a) = key a) :
    (t.updateWhere n p f).UniqueOn key := by
  have source (m : Nat) (b : α) (k : κ) (hb : (t.updateWhere n p f).get m = some b) (hk : key b = some k) :
      ∃ a, t.get m = some a ∧ key a = some k := by
    rcases t.get_updateWhere_cases n p f m with hs | ⟨rfl, a, ha, hp, hs⟩
    · exact ⟨b, hs ▸ hb, hk⟩
    · rw [hs, Option.some.injEq] at hb
      subst hb
      rcases hf a ha hp with hnone | hsame
      · rw [hnone] at hk; cases hk
      · exact ⟨a, ha, hsame ▸ hk⟩
  rw [uniqueOn_iff] at h ⊢
  intro m m' a b k ha hb hka hkb
  obtain ⟨a', ha', hka'⟩ := source m a k ha hka
  obtain ⟨b', hb', hkb'⟩ := source m' b k hb hkb
  exact h m m' a' b' k ha' hb' hka' hkb'

/-- A row inserted under a key of its own keeps the index. -/
theorem UniqueOn.insert (h : t.UniqueOn key) {a : α}
    (hfresh : ∀ k, key a = some k → ∀ n b, t.get n = some b → key b ≠ some k) : (t.insert a).UniqueOn key := by
  rw [uniqueOn_iff] at h ⊢
  intro m n b c k hb hc hkb hkc
  rcases get_insert_cases hb with ⟨hm, rfl⟩ | ⟨-, hb'⟩ <;> rcases get_insert_cases hc with ⟨hn, rfl⟩ | ⟨-, hc'⟩
  · rw [hm, hn]
  · exact absurd hkc (hfresh k hkb n c hc')
  · exact absurd hkb (hfresh k hkc m b hb')
  · exact h m n b c k hb' hc' hkb hkc

end UniqueOn

/-! ## The rows that match -/

theorem mem_hits {t : Table α} {p : α → Bool} {n : Nat} : n ∈ t.hits p ↔ ∃ a, t.get n = some a ∧ p a = true := by
  unfold hits
  rw [Finset.mem_filter, Finset.mem_range, Option.any_eq_true]
  constructor
  · exact fun h => h.2
  · rintro ⟨a, ha, hp⟩
    exact ⟨lt_next_of_get ha, a, ha, hp⟩

theorem hits_mono {t : Table α} {p q : α → Bool} (h : ∀ a, p a = true → q a = true) : t.hits p ⊆ t.hits q := by
  intro n hn
  rw [mem_hits] at hn ⊢
  obtain ⟨a, ha, hp⟩ := hn
  exact ⟨a, ha, h a hp⟩

/-- A row inserted is one more match, or none. -/
theorem hits_insert (t : Table α) (a : α) (p : α → Bool) :
    (t.insert a).hits p = if p a then Insert.insert t.next (t.hits p) else t.hits p := by
  ext n
  by_cases hn : n = t.next
  · subst hn
    have hfresh : t.next ∉ t.hits p := by
      rw [mem_hits]
      rintro ⟨b, hb, -⟩
      rw [t.get_next] at hb
      cases hb
    rw [mem_hits, get_insert_self]
    cases hp : p a with
    | true => simp [hp]
    | false => simp [hp, hfresh]
  · rw [mem_hits, get_insert_of_ne t a hn, ← mem_hits]
    split
    · rw [Finset.mem_insert, or_iff_right hn]
    · rfl

/-- An update under which no row starts to match adds no match. -/
theorem hits_updateWhere {t : Table α} {k : Nat} {q : α → Bool} {f : α → α} {p : α → Bool}
    (h : ∀ a, q a = true → p (f a) = true → p a = true) : (t.updateWhere k q f).hits p ⊆ t.hits p := by
  intro n hn
  rw [mem_hits] at hn ⊢
  obtain ⟨b, hb, hp⟩ := hn
  rcases t.get_updateWhere_cases k q f n with he | ⟨-, a, ha, hq, he⟩
  · exact ⟨b, he ▸ hb, hp⟩
  · rw [he, Option.some.injEq] at hb
    exact ⟨a, ha, h a hq (hb ▸ hp)⟩

end Table
end Lib
