import Mathlib.Algebra.BigOperators.Group.Finset.Basic
import Mathlib.Algebra.Order.BigOperators.Group.Finset
import SafeSend.Lib.Run
import SafeSend.Lib.Table
/-!
# Potentials

What is left to do, as a number no step raises and every step that does something lowers.  The steps that do something
are then no more than it, and as many steps as it, each of them doing something while there is anything to do, leave
nothing to do.
-/
namespace Lib

namespace Table

variable {α : Type} {t t' : Table α} {w : α → Nat}

/-- The weight of a row, where there is one. -/
def weigh (w : α → Nat) : Option α → Nat
  | none => 0
  | some a => w a

/-- The weights of a table's rows. -/
def total (w : α → Nat) (t : Table α) : Nat := ∑ n ∈ Finset.range t.next, weigh w (t.get n)

theorem total_le (hnext : t'.next = t.next) (h : ∀ n, weigh w (t'.get n) ≤ weigh w (t.get n)) :
    t'.total w ≤ t.total w := by
  unfold total
  rw [hnext]
  exact Finset.sum_le_sum fun n _ => h n

/-- **No row heavier and one lighter**, the table is lighter. -/
theorem total_lt (hnext : t'.next = t.next) (h : ∀ n, weigh w (t'.get n) ≤ weigh w (t.get n)) {n : Nat}
    (hn : weigh w (t'.get n) < weigh w (t.get n)) : t'.total w < t.total w := by
  have hmem : n ∈ Finset.range t.next := by
    rw [Finset.mem_range]
    by_contra hbeyond
    rw [t.beyond n (Nat.le_of_not_lt hbeyond)] at hn
    exact Nat.not_lt_zero _ hn
  unfold total
  rw [hnext]
  exact Finset.sum_lt_sum (fun m _ => h m) ⟨n, hmem, hn⟩

/-- A table weighs nothing where no row does. -/
theorem total_eq_zero_iff : t.total w = 0 ↔ ∀ n a, t.get n = some a → w a = 0 := by
  unfold total
  rw [Finset.sum_eq_zero_iff]
  constructor
  · intro h n a hn
    have hrow := h n (Finset.mem_range.2 (lt_next_of_get hn))
    rw [hn] at hrow
    exact hrow
  · intro h n _
    cases hn : t.get n with
    | none => rfl
    | some a => exact h n a hn

end Table

/-! ## Along a list of steps -/

section Fold

variable {σ τ : Type} (step : τ → σ → σ)

def runAll : List τ → σ → σ
  | [], s => s
  | t :: l, s => runAll l (step t s)

/-- The condition, at each step of the list. -/
def along (p : τ → σ → Bool) : List τ → σ → Bool
  | [], _ => true
  | t :: l, s => p t s && along p l (step t s)

variable {step} {p q : τ → σ → Bool} {I : σ → Prop} {μ : σ → Nat}

theorem along_and : ∀ (l : List τ) (s : σ),
    along step (fun t s => p t s && q t s) l s = (along step p l s && along step q l s)
  | [], _ => rfl
  | t :: l, s => by
    simp only [along, along_and l, Bool.and_assoc, Bool.and_left_comm]

/-- **Enough steps come to the end.** -/
theorem potential_zero (hstep : ∀ t s, I s → p t s = true → I (step t s) ∧ μ (step t s) ≤ μ s - 1) :
    ∀ (l : List τ) (s : σ), I s → along step p l s = true → μ s ≤ l.length →
      I (runAll step l s) ∧ μ (runAll step l s) = 0
  | [], s, hs, _, hlen => ⟨hs, Nat.le_zero.1 hlen⟩
  | t :: l, s, hs, hal, hlen => by
    simp only [along, Bool.and_eq_true] at hal
    obtain ⟨hkeep, hless⟩ := hstep t s hs hal.1
    rw [List.length_cons] at hlen
    exact potential_zero hstep l (step t s) hkeep hal.2 (by omega)

end Fold

/-! ## Along a run of a machine -/

namespace Machine

variable {σ α : Type} {m : Machine σ α} {ok : σ → α → Prop} {busy : σ → α → Bool} {μ : σ → Nat}

/-- The steps that did something. -/
def counting (m : Machine σ α) (busy : σ → α → Bool) : Machine (σ × Nat) α :=
  m.withHistory (fun s a n => n + (busy s a).toNat) 0

/-- **The steps that do something are no more than what there was to do.** -/
theorem Steps.potential (hstep : ∀ s a t, ok s a → m.step s a = some t → (busy s a).toNat + μ t ≤ μ s) {s t : σ}
    {k n : Nat} (h : (m.counting busy).Steps (fun p => ok p.1) (s, k) (t, n)) : n + μ t ≤ k + μ s := by
  refine h.keep (I := fun p => p.2 + μ p.1 ≤ k + μ s) ?_ (Nat.le_refl _)
  rintro ⟨u, i⟩ a ⟨v, j⟩ hu hok hs
  obtain ⟨hs, hj⟩ := withHistory_step hs
  have hless := hstep u a v hok hs
  simp only at hu hj hless ⊢
  omega

end Machine
end Lib
