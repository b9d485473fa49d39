import SafeSend.Lib.Table
/-!
# Row locks under READ COMMITTED

A row is what is committed of it and, while a transaction that wrote it is under way, what that transaction wrote: the
writer holds the row's lock.  A guarded update reads the row the transaction sees.  Where that does not match, nothing is
updated; where it matches and another holds the lock, the update waits, and reads again once the other has ended.
-/
namespace Lib

structure Slot (α : Type) where
  committed : Option α
  own : Option (Nat × α) := none

abbrev Slots (α : Type) := Table (Slot α)

namespace Slot

variable {α : Type}

def heldBy (tx : Nat) (v : Slot α) : Bool := v.own.any fun o => o.1 == tx

/-- A transaction's own version, where it wrote the row, else what is committed. -/
def seenBy (tx : Nat) (v : Slot α) : Option α := if v.heldBy tx then v.own.map Prod.snd else v.committed

/-- Another transaction holds the lock. -/
def locked (tx : Nat) (v : Slot α) : Bool := v.own.isSome && !v.heldBy tx

def commit (tx : Nat) (v : Slot α) : Slot α := if v.heldBy tx then ⟨v.own.map Prod.snd, none⟩ else v

def rollback (tx : Nat) (v : Slot α) : Slot α := if v.heldBy tx then ⟨v.committed, none⟩ else v

variable {tx tx' : Nat} {v : Slot α}

theorem heldBy_iff : v.heldBy tx = true ↔ ∃ a, v.own = some (tx, a) := by
  unfold heldBy
  constructor
  · intro h
    obtain ⟨⟨t, a⟩, ho, ht⟩ := (Option.any_eq_true _ _).1 h
    rw [beq_iff_eq] at ht
    exact ⟨a, by rw [ho, ← ht]⟩
  · rintro ⟨a, ho⟩
    simp [ho]

/-- One transaction holds the lock. -/
theorem heldBy_inj (h : v.heldBy tx = true) (h' : v.heldBy tx' = true) : tx = tx' := by
  obtain ⟨a, ha⟩ := heldBy_iff.1 h
  obtain ⟨b, hb⟩ := heldBy_iff.1 h'
  rw [ha, Option.some.injEq, Prod.mk.injEq] at hb
  exact hb.1

theorem heldBy_of_not_locked (h : v.locked tx = false) (hne : tx' ≠ tx) : v.heldBy tx' = false := by
  refine Bool.eq_false_iff.2 fun hheld => ?_
  obtain ⟨a, ha⟩ := heldBy_iff.1 hheld
  cases hown : v.heldBy tx with
  | true => exact hne (heldBy_inj hheld hown)
  | false => simp [locked, ha, hown] at h

theorem heldBy_commit : (v.commit tx).heldBy tx' = (v.heldBy tx' && decide (tx' ≠ tx)) := by
  unfold commit
  by_cases h : v.heldBy tx = true
  · rw [if_pos h]
    by_cases hne : tx' = tx
    · simp [heldBy, hne]
    · have hno : v.heldBy tx' = false := Bool.eq_false_iff.2 fun h' => hne (heldBy_inj h' h)
      rw [hno]
      rfl
  · rw [if_neg h]
    by_cases hne : tx' = tx
    · subst hne
      simp [h]
    · simp [hne]

theorem heldBy_rollback : (v.rollback tx).heldBy tx' = (v.heldBy tx' && decide (tx' ≠ tx)) := by
  have hsame : (v.rollback tx).heldBy tx' = (v.commit tx).heldBy tx' := by
    unfold rollback commit
    split <;> rfl
  rw [hsame, heldBy_commit]

theorem commit_of_not_held (h : v.heldBy tx = false) : v.commit tx = v := if_neg (Bool.eq_false_iff.1 h)

theorem rollback_of_not_held (h : v.heldBy tx = false) : v.rollback tx = v := if_neg (Bool.eq_false_iff.1 h)

theorem seenBy_of_not_held (h : v.heldBy tx = false) : v.seenBy tx = v.committed := if_neg (Bool.eq_false_iff.1 h)

end Slot

namespace Slots

variable {α : Type}

/-- Every row committed. -/
def ofTable (t : Table α) : Slots α where
  next := t.next
  get n := (t.get n).map fun a => ⟨some a, none⟩
  beyond n h := by
    rw [t.beyond n h]
    rfl

def seen (t : Slots α) (tx n : Nat) : Option α := (t.get n).bind (Slot.seenBy tx)

/-- `INSERT`. -/
def insert (t : Slots α) (tx : Nat) (a : α) : Slots α := Table.insert t ⟨none, some (tx, a)⟩

/-- `UPDATE … WHERE id = n AND p`, answering whether it matched; none of a step where it waits. -/
def updateWhere (t : Slots α) (tx n : Nat) (p : α → Bool) (f : α → α) : Option (Bool × Slots α) :=
  match (t.seen tx n).filter p with
  | none => some (false, t)
  | some a =>
    if (t.get n).any (Slot.locked tx) then none
    else some (true, Table.modify t n fun v => { v with own := some (tx, f a) })

/-- `ORDER BY id DESC LIMIT 1` among the rows the transaction sees that match. -/
def latest (t : Slots α) (tx : Nat) (p : α → Bool) : Option Nat :=
  (Table.latest t fun _ v => (v.seenBy tx).any p).map Prod.fst

def commit (t : Slots α) (tx : Nat) : Slots α := t.updateAll (fun _ => true) (Slot.commit tx)

def rollback (t : Slots α) (tx : Nat) : Slots α := t.updateAll (fun _ => true) (Slot.rollback tx)

/-- The transaction holds no row. -/
def Clean (tx : Nat) (t : Slots α) : Prop := ∀ n v, t.get n = some v → v.heldBy tx = false

/-- The rows a transaction holds are the same. -/
def Keeps (tx : Nat) (t t' : Slots α) : Prop := ∀ n v, v.heldBy tx = true → (t'.get n = some v ↔ t.get n = some v)

variable {t t' t'' : Slots α} {tx tx' n : Nat} {p : α → Bool} {f : α → α} {a : α} {v : Slot α}

theorem get_ofTable (t : Table α) (n : Nat) : (ofTable t).get n = (t.get n).map fun a => ⟨some a, none⟩ := rfl

theorem clean_ofTable (t : Table α) (tx : Nat) : Clean tx (ofTable t) := by
  intro n v hv
  rw [get_ofTable, Option.map_eq_some_iff] at hv
  obtain ⟨a, -, rfl⟩ := hv
  rfl

theorem get_commit (t : Slots α) (tx n : Nat) : (t.commit tx).get n = (t.get n).map (Slot.commit tx) := rfl

theorem get_rollback (t : Slots α) (tx n : Nat) : (t.rollback tx).get n = (t.get n).map (Slot.rollback tx) := rfl

/-- **What a guarded update does**: nothing where the row seen does not match, else the row is the transaction's. -/
theorem updateWhere_cases {x : Bool} (h : t.updateWhere tx n p f = some (x, t')) :
    (x = false ∧ t' = t ∧ ∀ a, t.seen tx n = some a → p a = false) ∨
      x = true ∧ ∃ v a, t.get n = some v ∧ v.seenBy tx = some a ∧ p a = true ∧ v.locked tx = false ∧
        t' = Table.modify t n fun v => { v with own := some (tx, f a) } := by
  unfold updateWhere at h
  cases hs : (t.seen tx n).filter p with
  | none =>
    rw [hs] at h
    obtain ⟨rfl, rfl⟩ := Prod.mk.inj (Option.some.inj h)
    refine .inl ⟨rfl, rfl, fun a ha => ?_⟩
    rw [ha, Option.filter_some] at hs
    by_cases hp : p a = true
    · rw [if_pos hp] at hs
      cases hs
    · exact Bool.eq_false_iff.2 hp
  | some a =>
    rw [hs] at h
    obtain ⟨hseen, hp⟩ := Option.filter_eq_some_iff.1 hs
    obtain ⟨v, hv, ha⟩ := Option.bind_eq_some_iff.1 hseen
    dsimp only at h
    split at h
    · cases h
    · rename_i hfree
      obtain ⟨rfl, rfl⟩ := Prod.mk.inj (Option.some.inj h)
      refine .inr ⟨rfl, v, a, hv, ha, hp, ?_, rfl⟩
      rw [hv, Option.any_some] at hfree
      exact Bool.eq_false_iff.2 hfree

theorem latest_eq_some (h : t.latest tx p = some n) : ∃ a, t.seen tx n = some a ∧ p a = true := by
  unfold latest at h
  obtain ⟨⟨m, v⟩, hl, rfl⟩ := Option.map_eq_some_iff.1 h
  obtain ⟨hv, hp, -⟩ := Table.latest_eq_some hl
  obtain ⟨a, ha, hpa⟩ := (Option.any_eq_true _ _).1 hp
  exact ⟨a, Option.bind_eq_some_iff.2 ⟨v, hv, ha⟩, hpa⟩

/-! ### What others leave of a transaction's rows -/

theorem Keeps.refl (tx : Nat) (t : Slots α) : Keeps tx t t := fun _ _ _ => .rfl

theorem Keeps.trans (h : Keeps tx t t') (h' : Keeps tx t' t'') : Keeps tx t t'' :=
  fun n v hv => (h' n v hv).trans (h n v hv)

theorem Keeps.clean (h : Keeps tx t t') (hc : Clean tx t) : Clean tx t' := by
  intro n v hv
  refine Bool.eq_false_iff.2 fun hheld => ?_
  rw [hc n v ((h n v hheld).1 hv)] at hheld
  cases hheld

theorem keeps_insert (t : Slots α) (a : α) (hne : tx' ≠ tx) : Keeps tx' t (t.insert tx a) := by
  intro n v hheld
  refine ⟨fun hv => ?_, fun hv => Table.get_insert_of_get _ hv⟩
  rcases Table.get_insert_cases hv with ⟨-, rfl⟩ | ⟨-, hv⟩
  · obtain ⟨b, hb⟩ := Slot.heldBy_iff.1 hheld
    exact absurd (Prod.mk.inj (Option.some.inj hb)).1.symm hne
  · exact hv

/-- A row that is not locked is written. -/
theorem keeps_modify (hv : t.get n = some v) (hfree : v.locked tx = false) (hne : tx' ≠ tx) (a : α) :
    Keeps tx' t (Table.modify t n fun v => { v with own := some (tx, a) }) := by
  intro m u hheld
  by_cases hm : m = n
  · subst hm
    have hno : v.heldBy tx' = false := Slot.heldBy_of_not_locked hfree hne
    rw [Table.get_modify_self, hv, Option.map_some]
    constructor
    · intro he
      obtain rfl := Option.some.inj he
      obtain ⟨b, hb⟩ := Slot.heldBy_iff.1 hheld
      exact absurd (Prod.mk.inj (Option.some.inj hb)).1.symm hne
    · intro he
      obtain rfl := Option.some.inj he
      rw [hno] at hheld
      cases hheld
  · rw [Table.get_modify_of_ne _ _ hm]

theorem keeps_map (g : Slot α → Slot α) (hg : ∀ v, v.heldBy tx' = true ∨ (g v).heldBy tx' = true → g v = v) :
    Keeps tx' t (t.updateAll (fun _ => true) g) := by
  intro n v hheld
  rw [Table.get_updateAll, if_pos rfl, Option.map_eq_some_iff]
  constructor
  · rintro ⟨u, hu, rfl⟩
    rw [hg u (.inr hheld)]
    exact hu
  · intro hv
    exact ⟨v, hv, hg v (.inl hheld)⟩

theorem keeps_commit (t : Slots α) (hne : tx' ≠ tx) : Keeps tx' t (t.commit tx) := by
  refine keeps_map (Slot.commit tx) fun v hv => Slot.commit_of_not_held (Bool.eq_false_iff.2 fun h => ?_)
  rw [Slot.heldBy_commit, decide_eq_true hne, Bool.and_true, or_self] at hv
  exact hne (Slot.heldBy_inj hv h)

theorem keeps_rollback (t : Slots α) (hne : tx' ≠ tx) : Keeps tx' t (t.rollback tx) := by
  refine keeps_map (Slot.rollback tx) fun v hv => Slot.rollback_of_not_held (Bool.eq_false_iff.2 fun h => ?_)
  rw [Slot.heldBy_rollback, decide_eq_true hne, Bool.and_true, or_self] at hv
  exact hne (Slot.heldBy_inj hv h)

/-- A rollback changes nothing that is committed. -/
theorem committed_rollback (t : Slots α) (tx n : Nat) :
    ((t.rollback tx).get n).bind Slot.committed = (t.get n).bind Slot.committed := by
  rw [get_rollback]
  cases t.get n with
  | none => rfl
  | some v =>
    show (v.rollback tx).committed = v.committed
    unfold Slot.rollback
    split <;> rfl

/-- A commit makes what the transaction saw what is committed. -/
theorem committed_commit (t : Slots α) (tx n : Nat) :
    ((t.commit tx).get n).bind Slot.committed = t.seen tx n := by
  rw [get_commit, seen]
  cases t.get n with
  | none => rfl
  | some v =>
    show (v.commit tx).committed = v.seenBy tx
    unfold Slot.commit Slot.seenBy
    split <;> rfl

theorem clean_commit (t : Slots α) (tx : Nat) : Clean tx (t.commit tx) := by
  intro n v hv
  rw [get_commit, Option.map_eq_some_iff] at hv
  obtain ⟨u, -, rfl⟩ := hv
  simp [Slot.heldBy_commit]

theorem clean_rollback (t : Slots α) (tx : Nat) : Clean tx (t.rollback tx) := by
  intro n v hv
  rw [get_rollback, Option.map_eq_some_iff] at hv
  obtain ⟨u, -, rfl⟩ := hv
  simp [Slot.heldBy_rollback]

end Slots
end Lib
