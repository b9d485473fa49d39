import SafeSend.Lib.Table
/-!
# Row versions under READ COMMITTED

A row is committed, or still the own of the transaction that wrote it.  Each statement reads what is committed when it
runs and what its own transaction wrote.  An insert that meets a conflicting row does nothing where it can see the row,
and waits for the row's transaction to end where it cannot.
-/
namespace Lib

structure Version (α : Type) where
  row : α
  writer : Option Nat

abbrev Versions (α : Type) := Table (Version α)

namespace Versions

variable {α β : Type}

def visibleTo (tx : Nat) (v : Version α) : Bool := v.writer.isNone || v.writer == some tx

/-- `SELECT … LIMIT 1`: the first row the transaction sees. -/
def select (t : Versions α) (tx : Nat) (p : α → Bool) : Option (Nat × α) :=
  (t.first fun _ v => visibleTo tx v && p v.row).map fun r => (r.1, r.2.row)

/-- `INSERT … ON CONFLICT DO NOTHING`, answering the new row's number; none of a step where it waits. -/
def insertUnless (t : Versions α) (tx : Nat) (conflicts : α → Bool) (a : α) : Option (Option Nat × Versions α) :=
  if t.any fun _ v => visibleTo tx v && conflicts v.row then some (none, t)
  else if t.any fun _ v => conflicts v.row then none
  else some (some t.next, Table.insert t ⟨a, some tx⟩)

def commit (t : Versions α) (tx : Nat) : Versions α :=
  t.updateAll (fun _ => true) fun v => if v.writer = some tx then { v with writer := none } else v

def rollback (t : Versions α) (tx : Nat) : Versions α := t.retain fun v => v.writer != some tx

/-- A committed row rewritten. -/
def revise (t : Versions α) (n : Nat) (f : α → α) : Versions α :=
  t.updateWhere n (fun v => v.writer.isNone) fun v => { v with row := f v.row }

/-- No two rows have one key, committed or not. -/
def Unique (key : α → β) (t : Versions α) : Prop :=
  ∀ m n u v, t.get m = some u → t.get n = some v → key u.row = key v.row → m = n

variable {t t' : Versions α} {tx n : Nat} {p : α → Bool} {a : α} {w : Option Nat}

theorem visibleTo_iff {v : Version α} : visibleTo tx v = true ↔ v.writer = none ∨ v.writer = some tx := by
  simp only [visibleTo, Bool.or_eq_true, Option.isNone_iff_eq_none, beq_iff_eq]

theorem select_eq_some (h : t.select tx p = some (n, a)) :
    ∃ w, t.get n = some ⟨a, w⟩ ∧ (w = none ∨ w = some tx) ∧ p a = true := by
  unfold select at h
  rw [Option.map_eq_some_iff] at h
  obtain ⟨⟨m, v⟩, hf, he⟩ := h
  obtain ⟨hg, hp⟩ := Table.first_eq_some hf
  rw [Bool.and_eq_true, visibleTo_iff] at hp
  simp only [Prod.mk.injEq] at he
  obtain ⟨rfl, rfl⟩ := he
  exact ⟨v.writer, hg, hp.1, hp.2⟩

/-- A visible row that matches is found. -/
theorem select_ne_none {v : Version α} (hv : t.get n = some v) (hw : v.writer = none ∨ v.writer = some tx)
    (hp : p v.row = true) : t.select tx p ≠ none := by
  intro h
  unfold select at h
  rw [Option.map_eq_none_iff] at h
  have := Table.first_eq_none h n v hv
  rw [visibleTo_iff.2 hw, hp] at this
  cases this

/-- **What an insert does**: nothing, for a row it sees, or a new row where no row conflicts. -/
theorem insertUnless_cases {x : Option Nat} (h : t.insertUnless tx p a = some (x, t')) :
    (x = none ∧ t' = t ∧ ∃ n v, t.get n = some v ∧ (v.writer = none ∨ v.writer = some tx) ∧ p v.row = true) ∨
      x = some t.next ∧ t' = Table.insert t ⟨a, some tx⟩ ∧ ∀ n v, t.get n = some v → p v.row = false := by
  unfold insertUnless at h
  split at h
  · rename_i hany
    obtain ⟨n, v, hv, hp⟩ := Table.any_eq_true.1 hany
    rw [Bool.and_eq_true, visibleTo_iff] at hp
    obtain ⟨rfl, rfl⟩ := Prod.mk.inj (Option.some.inj h)
    exact .inl ⟨rfl, rfl, n, v, hv, hp⟩
  · split at h
    · cases h
    · rename_i hnone
      obtain ⟨rfl, rfl⟩ := Prod.mk.inj (Option.some.inj h)
      exact .inr ⟨rfl, rfl, Table.any_eq_false.1 (Bool.eq_false_iff.2 hnone)⟩

theorem commit_eq_some {v : Version α} :
    (t.commit tx).get n = some v ↔
      t.get n = some v ∧ v.writer ≠ some tx ∨ v.writer = none ∧ t.get n = some ⟨v.row, some tx⟩ := by
  unfold commit
  rw [Table.get_updateAll, if_pos rfl, Option.map_eq_some_iff]
  constructor
  · rintro ⟨u, hu, rfl⟩
    split
    · rename_i hw
      exact .inr ⟨rfl, by rw [hu, ← hw]⟩
    · rename_i hw
      exact .inl ⟨hu, hw⟩
  · rintro (⟨hv, hw⟩ | ⟨hw, hv⟩)
    · exact ⟨v, hv, if_neg hw⟩
    · refine ⟨_, hv, ?_⟩
      rw [if_pos rfl, ← hw]

theorem rollback_eq_some {v : Version α} : (t.rollback tx).get n = some v ↔ t.get n = some v ∧ v.writer ≠ some tx := by
  rw [rollback, Table.get_retain, Option.filter_eq_some_iff, bne_iff_ne]

/-- A row after a revision is one from before: rewritten, where it is committed. -/
theorem revise_eq_some {f : α → α} {m : Nat} {v : Version α} (h : (t.revise m f).get n = some v) :
    t.get n = some v ∨ v.writer = none ∧ ∃ r, t.get n = some ⟨r, none⟩ ∧ v.row = f r := by
  unfold revise at h
  rcases Table.get_updateWhere_cases t m (fun v => v.writer.isNone) (fun v => { v with row := f v.row }) n with
    hs | ⟨rfl, u, hu, hw, hs⟩
  · exact .inl (hs ▸ h)
  · rw [hs, Option.some.injEq] at h
    rw [Option.isNone_iff_eq_none] at hw
    refine .inr ⟨by rw [← h]; exact hw, u.row, by rw [hu, ← hw], by rw [← h]⟩

theorem revise_committed {f : α → α} (m : Nat) {r : α} (h : t.get n = some ⟨r, none⟩) :
    (t.revise m f).get n = some ⟨r, none⟩ ∨ (t.revise m f).get n = some ⟨f r, none⟩ := by
  unfold revise
  rcases Table.get_updateWhere_cases t m (fun v => v.writer.isNone) (fun v => { v with row := f v.row }) n with
    hs | ⟨rfl, u, hu, -, hs⟩
  · exact .inl (hs.trans h)
  · obtain rfl := Option.some.inj (h.symm.trans hu)
    exact .inr hs

theorem revise_own {f : α → α} (m : Nat) {r : α} :
    (t.revise m f).get n = some ⟨r, some tx⟩ ↔ t.get n = some ⟨r, some tx⟩ := by
  constructor
  · intro h
    rcases revise_eq_some h with hs | ⟨hw, -⟩
    · exact hs
    · cases hw
  · intro h
    unfold revise
    rcases Table.get_updateWhere_cases t m (fun v => v.writer.isNone) (fun v => { v with row := f v.row }) n with
      hs | ⟨rfl, u, hu, hw, -⟩
    · exact hs.trans h
    · obtain rfl := Option.some.inj (h.symm.trans hu)
      cases hw

/-! ### Keys -/

variable {key : α → β}

theorem Unique.insert (h : Unique key t) (hfree : ∀ n v, t.get n = some v → key v.row ≠ key a) :
    Unique key (Table.insert t ⟨a, w⟩) := by
  intro m n u v hu hv hk
  rcases Table.get_insert_cases hu with ⟨rfl, rfl⟩ | ⟨-, hu⟩ <;> rcases Table.get_insert_cases hv with ⟨rfl, rfl⟩ | ⟨-, hv⟩
  · rfl
  · exact absurd hk.symm (hfree n v hv)
  · exact absurd hk (hfree m u hu)
  · exact h m n u v hu hv hk

/-- Rows that come from rows of the same key. -/
theorem Unique.of_source (h : Unique key t)
    (hsrc : ∀ n v, t'.get n = some v → ∃ u, t.get n = some u ∧ key u.row = key v.row) : Unique key t' := by
  intro m n u v hu hv hk
  obtain ⟨u₀, hu₀, he⟩ := hsrc m u hu
  obtain ⟨v₀, hv₀, he'⟩ := hsrc n v hv
  exact h m n u₀ v₀ hu₀ hv₀ (by rw [he, hk, he'])

/-- A row after the end of a transaction was there before. -/
theorem commit_source {v : Version α} (h : (t.commit tx).get n = some v) : ∃ u, t.get n = some u ∧ u.row = v.row := by
  rcases commit_eq_some.1 h with ⟨hv, -⟩ | ⟨-, hv⟩
  · exact ⟨v, hv, rfl⟩
  · exact ⟨_, hv, rfl⟩

end Versions
end Lib
