import SafeSend.Lib.Table
/-!
# Rows beside their ids

A table as the list of its rows, in the order they are read in, and what it is to somebody who is shown some of them
(`own`): a query that asks for shown rows alone is answered by those, and a statement that writes shown rows alone
leaves the others as they were.
-/
namespace Lib
namespace Keyed

variable {α β : Type}

/-- `UPDATE … WHERE p`. -/
def alter (p : Nat × α → Bool) (f : α → α) (t : List (Nat × α)) : List (Nat × α) :=
  t.map fun r => if p r then (r.1, f r.2) else r

/-! ## Queries -/

section

variable {own p : β → Bool} {s t : List β}

theorem filter_own (own : β → Bool) (hp : ∀ r ∈ t, p r = true → own r = true) : t.filter p = (t.filter own).filter p := by
  rw [List.filter_filter]
  refine List.filter_congr fun r hr => ?_
  cases h : p r with
  | false => rfl
  | true => rw [hp r hr h]; rfl

theorem any_congr_mem {q : β → Bool} (h : ∀ r ∈ t, p r = q r) : t.any p = t.any q := by
  rw [Bool.eq_iff_iff, List.any_eq_true, List.any_eq_true]
  exact exists_congr fun r => and_congr_right fun hr => by rw [h r hr]

theorem any_own (hp : ∀ r ∈ t, p r = true → own r = true) : t.any p = (t.filter own).any p := by
  rw [List.any_filter]
  refine any_congr_mem fun r hr => ?_
  cases h : p r with
  | false => exact (Bool.and_false _).symm
  | true => rw [hp r hr h]; rfl

variable (hs : ∀ r ∈ s, p r = true → own r = true) (ht : ∀ r ∈ t, p r = true → own r = true)
include hs ht

/-- **What is asked of shown rows is answered alike by tables with the same ones.** -/
theorem filter_congr (h : s.filter own = t.filter own) : s.filter p = t.filter p := by
  rw [filter_own own hs, filter_own own ht, h]

theorem find?_congr (h : s.filter own = t.filter own) : s.find? p = t.find? p := by
  rw [← List.head?_filter, ← List.head?_filter, filter_congr hs ht h]

theorem any_congr (h : s.filter own = t.filter own) : s.any p = t.any p := by
  rw [any_own hs, any_own ht, h]

omit hs ht in
theorem mem_of_own (h : s.filter own = t.filter own) {r : β} (hr : r ∈ s) (hown : own r = true) : r ∈ t :=
  (List.mem_filter.1 (h ▸ List.mem_filter.2 ⟨hr, hown⟩)).1

end

/-! ## One row by its id -/

theorem eq_of_key {t : List (Nat × α)} (hkeys : (t.map Prod.fst).Nodup) {r r' : Nat × α} (hr : r ∈ t) (hr' : r' ∈ t)
    (h : r.1 = r'.1) : r = r' := List.inj_on_of_nodup_map hkeys hr hr' h

theorem find?_key {t : List (Nat × α)} (hkeys : (t.map Prod.fst).Nodup) {id : Nat} {a : α} (h : (id, a) ∈ t) :
    t.find? (fun r => r.1 == id) = some (id, a) := by
  cases hf : t.find? fun r => r.1 == id with
  | none => exact absurd (beq_self_eq_true id) (List.find?_eq_none.1 hf _ h)
  | some r =>
    have hkey : r.1 = id := beq_iff_eq.1 (List.find?_some (p := fun r : Nat × α => r.1 == id) hf)
    rw [eq_of_key hkeys (List.mem_of_find?_eq_some hf) h hkey]

theorem nodup_append {t : List (Nat × α)} (hkeys : (t.map Prod.fst).Nodup) {id : Nat} {a : α} (hid : ∀ r ∈ t, r.1 ≠ id) :
    ((t ++ [(id, a)]).map Prod.fst).Nodup := by
  rw [List.map_append, List.nodup_append]
  refine ⟨hkeys, List.nodup_singleton _, fun m hm n hn => ?_⟩
  obtain ⟨r, hr, rfl⟩ := List.mem_map.1 hm
  rw [List.mem_singleton.1 hn]
  exact hid r hr

/-! ## Updates -/

variable {p : Nat × α → Bool} {f : α → α} {own : Nat × α → Bool} {t : List (Nat × α)}

theorem mem_alter {r : Nat × α} : r ∈ alter p f t ↔ ∃ r₀ ∈ t, r = if p r₀ then (r₀.1, f r₀.2) else r₀ := by
  unfold alter
  rw [List.mem_map]
  exact exists_congr fun r₀ => and_congr_right fun _ => eq_comm

/-- An altered table's row comes from the row of the same id. -/
theorem mem_alter_cases {r : Nat × α} (h : r ∈ alter p f t) :
    r ∈ t ∨ ∃ r₀ ∈ t, p r₀ = true ∧ r.1 = r₀.1 ∧ r.2 = f r₀.2 := by
  obtain ⟨r₀, hr₀, rfl⟩ := mem_alter.1 h
  cases hp : p r₀ with
  | false => exact .inl hr₀
  | true => exact .inr ⟨r₀, hr₀, hp, rfl, rfl⟩

@[simp] theorem keys_alter (t : List (Nat × α)) : (alter p f t).map Prod.fst = t.map Prod.fst := by
  unfold alter
  rw [List.map_map]
  refine List.map_congr_left fun r _ => ?_
  show (if p r then (r.1, f r.2) else r).1 = r.1
  split <;> rfl

theorem filter_alter (hf : ∀ r ∈ t, p r = true → own r = true ∧ own (r.1, f r.2) = true) :
    (alter p f t).filter own = alter p f (t.filter own) := by
  unfold alter
  rw [List.filter_map]
  congr 1
  refine List.filter_congr fun r hr => ?_
  show own (if p r then (r.1, f r.2) else r) = own r
  split
  next hp => rw [(hf r hr hp).1, (hf r hr hp).2]
  next => rfl

/-- **An update of shown rows, that leaves them shown, leaves the others as they were.** -/
theorem filter_not_alter (own : Nat × α → Bool) (hf : ∀ r ∈ t, p r = true → own r = true ∧ own (r.1, f r.2) = true) :
    ((alter p f t).filter fun r => !own r) = t.filter fun r => !own r := by
  have hsame : (alter p f t).filter (fun r => !own r) = alter p f (t.filter fun r => !own r) := by
    unfold alter
    rw [List.filter_map]
    congr 1
    refine List.filter_congr fun r hr => ?_
    show (!own (if p r then (r.1, f r.2) else r)) = !own r
    split
    next hp => rw [(hf r hr hp).1, (hf r hr hp).2]
    next => rfl
  have hstay : ∀ r ∈ t.filter fun r => !own r, (if p r then (r.1, f r.2) else r) = id r := by
    intro r hr
    obtain ⟨hr, hown⟩ := List.mem_filter.1 hr
    refine if_neg fun hp => ?_
    rw [(hf r hr hp).1] at hown
    cases hown
  rw [hsame]
  unfold alter
  rw [List.map_congr_left hstay, List.map_id]

/-! ## Tables that number their rows apart -/

/-- The same rows in the same order, under numbers of their own. -/
def Alike (s t : List (Nat × α)) : Prop := s.map Prod.snd = t.map Prod.snd

theorem Alike.of_eq {s s' t t' : List (Nat × α)} (h : Alike s t) (hs : s' = s) (ht : t' = t) : Alike s' t' := by
  rw [hs, ht]
  exact h

theorem Alike.any {s t : List (Nat × α)} (h : Alike s t) (q : α → Bool) : (s.any fun r => q r.2) = t.any fun r => q r.2 := by
  have hany (l : List (Nat × α)) : (l.any fun r => q r.2) = (l.map Prod.snd).any q := by
    rw [List.any_map]
    rfl
  rw [hany s, hany t, h]

theorem Alike.filter {s t : List (Nat × α)} (h : Alike s t) (q : α → Bool) :
    Alike (s.filter fun r => q r.2) (t.filter fun r => q r.2) := by
  have hfilter (l : List (Nat × α)) : (l.filter fun r => q r.2).map Prod.snd = (l.map Prod.snd).filter q := by
    rw [List.filter_map]
    rfl
  unfold Alike
  rw [hfilter s, hfilter t, h]

theorem Alike.getLast? {s t : List (Nat × α)} (h : Alike s t) : s.getLast?.map Prod.snd = t.getLast?.map Prod.snd := by
  rw [← List.getLast?_map, ← List.getLast?_map, h]

theorem Alike.append {s t : List (Nat × α)} (h : Alike s t) (m n : Nat) (a : α) : Alike (s ++ [(m, a)]) (t ++ [(n, a)]) := by
  unfold Alike
  rw [List.map_append, List.map_append, h]
  rfl

/-- An update of the row that stands there. -/
theorem alter_split {l₁ l₂ : List (Nat × α)} {k : Nat} {a : α} (hkeys : ((l₁ ++ (k, a) :: l₂).map Prod.fst).Nodup)
    (f : α → α) : alter (fun r => r.1 == k) f (l₁ ++ (k, a) :: l₂) = l₁ ++ (k, f a) :: l₂ := by
  rw [List.map_append, List.map_cons, List.nodup_middle, List.nodup_cons] at hkeys
  have hstay (l : List (Nat × α)) (hl : ∀ r ∈ l, r ∈ l₁ ++ l₂) : alter (fun r => r.1 == k) f l = l := by
    unfold alter
    refine (List.map_congr_left fun r hr => ?_).trans (List.map_id l)
    refine if_neg fun hk => hkeys.1 ?_
    rw [← List.map_append, ← beq_iff_eq.1 hk]
    exact List.mem_map.2 ⟨r, hl r hr, rfl⟩
  have h₁ := hstay l₁ fun r hr => List.mem_append_left _ hr
  have h₂ := hstay l₂ fun r hr => List.mem_append_right _ hr
  unfold alter at h₁ h₂ ⊢
  rw [List.map_append, List.map_cons, h₁, h₂]
  exact congrArg (fun r => l₁ ++ r :: l₂) (if_pos (beq_self_eq_true k))

/-- **The latest rows that match are one row**, and an update of it leaves the tables alike. -/
theorem Alike.latest {s t : List (Nat × α)} (h : Alike s t) (hs : (s.map Prod.fst).Nodup) (ht : (t.map Prod.fst).Nodup)
    (q : α → Bool) :
    (s.filter fun r => q r.2).getLast? = none ∧ (t.filter fun r => q r.2).getLast? = none ∨
      ∃ m n a, (s.filter fun r => q r.2).getLast? = some (m, a) ∧ (t.filter fun r => q r.2).getLast? = some (n, a) ∧
        ∀ f, Alike (alter (fun r => r.1 == m) f s) (alter (fun r => r.1 == n) f t) := by
  cases hlast : (s.filter fun r => q r.2).getLast? with
  | none =>
    rw [List.getLast?_eq_none_iff] at hlast
    have hnil : (t.filter fun r => q r.2).map Prod.snd = [] := by
      rw [← h.filter q, hlast]
      rfl
    exact .inl ⟨rfl, by rw [List.map_eq_nil_iff.1 hnil]; rfl⟩
  | some r =>
    obtain ⟨m, a⟩ := r
    obtain ⟨ys, hys⟩ := List.getLast?_eq_some_iff.1 hlast
    obtain ⟨l₀, l₁, rfl, -, hcons⟩ := List.filter_eq_append_iff.1 hys
    obtain ⟨k₁, l₂, rfl, -, ha, hrest⟩ := List.filter_eq_cons_iff.1 hcons
    rw [← List.append_assoc] at h hs ⊢
    generalize l₀ ++ k₁ = l at h hs ⊢
    obtain ⟨b₁, b', rfl, hb₁, hb'⟩ := List.map_eq_append_iff.1 (Eq.trans (Eq.symm h) (List.map_append ..))
    obtain ⟨⟨n, a'⟩, b₂, rfl, rfl, hb₂⟩ := List.map_eq_cons_iff.1 hb'
    have hrest' : (b₂.filter fun r => q r.2) = [] := by
      have := Alike.filter (s := b₂) (t := l₂) hb₂ q
      unfold Alike at this
      rw [hrest, List.map_nil, List.map_eq_nil_iff] at this
      exact this
    refine .inr ⟨m, n, a', rfl, ?_, fun f => ?_⟩
    · have hmatch : q a' = true := ha
      rw [List.filter_append, List.filter_cons, if_pos hmatch, hrest', List.getLast?_append, List.getLast?_singleton]
      rfl
    · rw [alter_split hs, alter_split ht]
      unfold Alike
      rw [List.map_append, List.map_append, hb₁, List.map_cons, List.map_cons, hb₂]

/-! ## The rows of a table that numbers them -/

theorem nodup_rows (t : Table α) : (t.rows.map Prod.fst).Nodup := by
  rw [List.Nodup, List.pairwise_map]
  exact t.rows_sorted.imp fun h => Nat.ne_of_lt h

theorem rows_updateWhere (t : Table α) (k : Nat) (p : α → Bool) (f : α → α) :
    (t.updateWhere k p f).rows = alter (fun r => r.1 == k) (fun a => if p a then f a else a) t.rows := by
  unfold Table.rows alter
  rw [List.map_filterMap, Table.next_updateWhere]
  refine List.filterMap_congr fun n _ => ?_
  by_cases hn : n = k
  · subst hn
    rw [Table.get_updateWhere_self]
    cases t.get n with
    | none => rfl
    | some a => exact congrArg some (Eq.symm (if_pos (beq_self_eq_true n)))
  · rw [Table.get_updateWhere_of_ne t p f hn]
    cases t.get n with
    | none => rfl
    | some a => exact congrArg some (Eq.symm (if_neg fun he => hn (beq_iff_eq.1 he)))

end Keyed
end Lib
