import Mathlib.Algebra.Order.Ring.Nat
import Mathlib.Data.List.Pairwise
/-!
# Spaced instants

Instants, the latest first, each more than `d` after the one before.  A window holds few of them.
-/
namespace Lib

def Spaced (d : Nat) (l : List Nat) : Prop := l.Pairwise fun later earlier => earlier + d < later

namespace Spaced

variable {d a : Nat} {l : List Nat}

theorem nil : Spaced d [] := List.Pairwise.nil

/-- A later instant may be added that is more than `d` after the latest. -/
theorem cons (h : Spaced d l) (hlast : ∀ b, l.head? = some b → b + d < a) : Spaced d (a :: l) := by
  refine List.pairwise_cons.2 ⟨?_, h⟩
  intro e he
  cases l with
  | nil => cases he
  | cons b m =>
    have hb := hlast b rfl
    rcases List.mem_cons.1 he with rfl | he
    · exact hb
    · have hbe := (List.pairwise_cons.1 h).1 e he
      omega

/-- The distance from the first to the last. -/
theorem span {lo : Nat} : ∀ {l : List Nat} {a : Nat}, Spaced d (a :: l) → (∀ x ∈ a :: l, lo ≤ x) →
    lo + l.length * (d + 1) ≤ a
  | [], a, _, hlo => by
    have ha := hlo a List.mem_cons_self
    simpa using ha
  | b :: l, a, h, hlo => by
    obtain ⟨hall, hrest⟩ := List.pairwise_cons.1 h
    have hab := hall b List.mem_cons_self
    have hb := span hrest fun x hx => hlo x (List.mem_cons_of_mem _ hx)
    rw [List.length_cons, Nat.succ_mul]
    omega

/-- **How many there are in a window.** -/
theorem window (h : Spaced d l) (lo width : Nat) :
    (l.filter fun x => decide (lo ≤ x ∧ x < lo + width)).length ≤ width / (d + 1) + 1 := by
  have hsub : Spaced d (l.filter fun x => decide (lo ≤ x ∧ x < lo + width)) := h.filter _
  have hmem : ∀ x ∈ l.filter (fun x => decide (lo ≤ x ∧ x < lo + width)), lo ≤ x ∧ x < lo + width := fun x hx =>
    of_decide_eq_true (List.mem_filter.1 hx).2
  generalize l.filter (fun x => decide (lo ≤ x ∧ x < lo + width)) = m at hsub hmem
  cases m with
  | nil => exact Nat.zero_le _
  | cons a m =>
    have hspan := hsub.span fun x hx => (hmem x hx).1
    have ha := (hmem a List.mem_cons_self).2
    have hmul : m.length * (d + 1) ≤ width := by omega
    have hlen : m.length ≤ width / (d + 1) := (Nat.le_div_iff_mul_le (Nat.succ_pos d)).2 hmul
    rw [List.length_cons]
    omega

end Spaced
end Lib
