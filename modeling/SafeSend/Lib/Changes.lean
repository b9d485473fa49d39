import Mathlib.Data.List.Find
/-!
# What changed

A property of a list at each of its elements, with what stands before and after it; and the last value that a list
holds under a key.
-/
namespace Lib

variable {α κ φ : Type*}

/-- Wherever the list is cut at an element, this holds of what is before, the element and what is after. -/
def AtEach (P : List α → α → List α → Prop) (l : List α) : Prop :=
  ∀ before a after, l = before ++ a :: after → P before a after

theorem atEach_nil (P : List α → α → List α → Prop) : AtEach P [] := by
  intro before a after h
  rw [List.nil_eq_append_iff] at h
  exact absurd h.2 (List.cons_ne_nil _ _)

theorem atEach_cons {P : List α → α → List α → Prop} {a : α} {l : List α} :
    AtEach P (a :: l) ↔ P [] a l ∧ AtEach (fun before => P (a :: before)) l := by
  constructor
  · intro h
    exact ⟨h [] a l rfl, fun before b after hl => h (a :: before) b after (by rw [hl, List.cons_append])⟩
  · rintro ⟨hhead, hrest⟩ before b after hl
    rcases List.cons_eq_append_iff.1 hl with ⟨rfl, hcons⟩ | ⟨before', rfl, hcut⟩
    · obtain ⟨rfl, rfl⟩ := List.cons.inj hcons
      exact hhead
    · exact hrest before' b after hcut

variable [DecidableEq κ]

/-- The value that came last under a key. -/
def lastOf (key : α → κ) (val : α → φ) (rows : List α) (k : κ) : Option φ :=
  (rows.reverse.find? fun a => key a = k).map val

theorem lastOf_concat (key : α → κ) (val : α → φ) (rows : List α) (a : α) (k : κ) :
    lastOf key val (rows ++ [a]) k = if key a = k then some (val a) else lastOf key val rows k := by
  unfold lastOf
  rw [List.reverse_concat, List.find?_cons]
  by_cases h : key a = k
  · simp [h]
  · simp [h]

theorem lastOf_congr {κ' : Type*} [DecidableEq κ'] {key : α → κ} {key' : α → κ'} {rows : List α} {k : κ} {k' : κ'}
    (val : α → φ) (h : ∀ a ∈ rows, key a = k ↔ key' a = k') : lastOf key val rows k = lastOf key' val rows k' := by
  have hkeys : ∀ a ∈ rows.reverse, decide (key a = k) = decide (key' a = k') := fun a ha =>
    decide_eq_decide.2 (h a (List.mem_reverse.1 ha))
  unfold lastOf
  rw [List.find?_congr hkeys]

end Lib
