import Mathlib.Logic.Relation
/-!
# Deletions under foreign keys

A row refers to another and is deleted with it (`ON DELETE CASCADE`), or its reference forbids that the other goes while
it stays (`NO ACTION`).  What a deletion sweeps is what cascades from it, and the database carries it out where every
reference that forbids it is swept too.
-/
namespace Lib

/-- `cascades c p`: the row `c` refers to `p` and goes with it.  `forbids c p`: it refers to `p` and does not. -/
structure References (κ : Type) where
  cascades : κ → κ → Prop
  forbids : κ → κ → Prop

namespace References

variable {κ : Type}

def Refers (r : References κ) (c p : κ) : Prop := r.cascades c p ∨ r.forbids c p

def Swept (r : References κ) : κ → κ → Prop := Relation.ReflTransGen fun p c => r.cascades c p

def Deletable (r : References κ) (k : κ) : Prop := ∀ p c, r.Swept k p → r.forbids c p → r.Swept k c

variable {r r' : References κ} {S : κ → Prop} {k : κ}

theorem Swept.mem (hclosed : ∀ c p, S p → r.cascades c p → S c) (hk : S k) {p : κ} (h : r.Swept k p) : S p := by
  induction h with
  | refl => exact hk
  | tail _ hc ih => exact hclosed _ _ ih hc

theorem Swept.congr (hclosed : ∀ c p, S p → r.cascades c p → S c)
    (hcascades : ∀ c p, S p → r.cascades c p → r'.cascades c p) (hk : S k) {p : κ} (h : r.Swept k p) : r'.Swept k p := by
  induction h with
  | refl => exact Relation.ReflTransGen.refl
  | tail hp hc ih => exact ih.tail (hcascades _ _ (Swept.mem hclosed hk hp) hc)

/-- **A row stays deletable** while the rows that cascade from it are the same, and no further reference to one of them
forbids its deletion. -/
theorem Deletable.congr (hclosed : ∀ c p, S p → r.cascades c p → S c)
    (hcascades : ∀ c p, S p → (r'.cascades c p ↔ r.cascades c p)) (hforbids : ∀ c p, S p → r'.forbids c p → r.forbids c p)
    (hk : S k) (h : r.Deletable k) : r'.Deletable k := by
  have hclosed' : ∀ c p, S p → r'.cascades c p → S c := fun c p hp hc => hclosed c p hp ((hcascades c p hp).1 hc)
  intro p c hp hc
  have hS : S p := hp.mem hclosed' hk
  have hswept : r.Swept k p := hp.congr hclosed' (fun c p hp => (hcascades c p hp).1) hk
  exact (h p c hswept (hforbids c p hS hc)).congr hclosed (fun c p hp => (hcascades c p hp).2) hk

end References
end Lib
