import Mathlib.Data.List.Basic
/-!
# Worklists

A list worked from the front, so many items a turn.  Of the items of a turn, those that leave are gone at the next one,
those that stay are still in front, and one that stops ends the work.  Where items stay they fill the turns: `reaches`
is whether one that stops is met before as many that stay as a turn takes.
-/
namespace Lib

/-- What becomes of an item when its turn comes. -/
inductive Fate
  | leaves
  | stays
  | stops
  deriving DecidableEq, Repr

namespace Worklist

/-- How the work ended. -/
inductive Ending
  | finished
  | stopped
  deriving DecidableEq, Repr

variable {α : Type} (fate : α → Fate)

/-- The list after a turn in which nothing stopped. -/
def rest (k : Nat) (l : List α) : List α :=
  (l.take k).filter (fun a => decide (fate a = .stays)) ++ l.drop k

/-- The work, for so many turns: `none` where it is still going on. -/
def work (k : Nat) : Nat → List α → Option Ending
  | 0, _ => none
  | n + 1, l =>
    if (l.take k).isEmpty then some .finished
    else if (l.take k).any fun a => decide (fate a = .stops) then some .stopped
    else work k n (rest fate k l)

def reaches : Nat → List α → Bool
  | 0, _ => false
  | _ + 1, [] => false
  | k + 1, a :: l =>
    match fate a with
    | .stops => true
    | .stays => reaches k l
    | .leaves => reaches (k + 1) l

variable {fate} {k n : Nat} {l : List α}

theorem reaches_nil (k : Nat) : reaches fate k [] = false := by
  cases k <;> rfl

theorem reaches_zero (l : List α) : reaches fate 0 l = false := by
  cases l <;> rfl

/-- Before anything stops, the items that stay use up the turn and the others do not. -/
theorem reaches_append : ∀ {p : List α}, (∀ a ∈ p, fate a ≠ .stops) → ∀ (k : Nat) (q : List α),
    reaches fate k (p ++ q) = reaches fate (k - p.countP fun a => decide (fate a = .stays)) q
  | [], _, k, q => rfl
  | a :: p, hp, k, q => by
    have ih := reaches_append fun b hb => hp b (List.mem_cons_of_mem a hb)
    cases k with
    | zero =>
      rw [Nat.zero_sub, reaches_zero, reaches_zero]
    | succ k =>
      cases ha : fate a with
      | stops => exact absurd ha (hp a List.mem_cons_self)
      | stays =>
        rw [List.cons_append, reaches, ha, List.countP_cons_of_pos (by simp [ha])]
        simp only [ih, Nat.add_sub_add_right]
      | leaves =>
        rw [List.cons_append, reaches, ha, List.countP_cons_of_neg (by simp [ha])]
        simp only [ih]

theorem reaches_rest (h : ∀ a ∈ l.take k, fate a ≠ .stops) : reaches fate k (rest fate k l) = reaches fate k l := by
  have hstay : ∀ a ∈ (l.take k).filter (fun a => decide (fate a = .stays)), fate a ≠ .stops := by
    intro a ha
    exact h a (List.mem_filter.1 ha).1
  have hcount : ((l.take k).filter fun a => decide (fate a = .stays)).countP (fun a => decide (fate a = .stays)) =
      (l.take k).countP fun a => decide (fate a = .stays) := by
    rw [List.countP_filter]
    simp only [Bool.and_self]
  rw [rest, reaches_append hstay, hcount, ← reaches_append h, List.take_append_drop]

/-- What stops in a turn is reached. -/
theorem reaches_of_mem_take : ∀ {l : List α} {k : Nat}, (∃ a ∈ l.take k, fate a = .stops) → reaches fate k l = true
  | [], k, h => by
    obtain ⟨a, ha, -⟩ := h
    rw [List.take_nil] at ha
    cases ha
  | b :: l, 0, h => by
    obtain ⟨a, ha, -⟩ := h
    cases ha
  | b :: l, k + 1, h => by
    obtain ⟨a, ha, hs⟩ := h
    rw [List.take_succ_cons, List.mem_cons] at ha
    cases hb : fate b with
    | stops => simp only [reaches, hb]
    | stays =>
      rcases ha with rfl | ha
      · cases hb.symm.trans hs
      · simp only [reaches, hb]
        exact reaches_of_mem_take ⟨a, ha, hs⟩
    | leaves =>
      rcases ha with rfl | ha
      · cases hb.symm.trans hs
      · simp only [reaches, hb]
        exact reaches_of_mem_take ⟨a, List.take_subset_take_left l (Nat.le_succ k) ha, hs⟩

/-- A turn that stays whole reaches nothing behind it. -/
theorem exists_leaves (hr : reaches fate k l = true) (h : ∀ a ∈ l.take k, fate a ≠ .stops) :
    ∃ a ∈ l.take k, fate a = .leaves := by
  by_contra hno
  have hall : ∀ a ∈ l.take k, decide (fate a = .stays) = true := by
    intro a ha
    cases hf : fate a with
    | stops => exact absurd hf (h a ha)
    | stays => rfl
    | leaves => exact absurd ⟨a, ha, hf⟩ hno
  rw [← List.take_append_drop k l, reaches_append h, List.countP_eq_length.2 hall] at hr
  by_cases hk : k ≤ l.length
  · rw [List.length_take, Nat.min_eq_left hk, Nat.sub_self, reaches_zero] at hr
    cases hr
  · rw [List.drop_eq_nil_of_le (by omega), reaches_nil] at hr
    cases hr

/-- The items that would leave. -/
def pending (fate : α → Fate) (l : List α) : Nat := l.countP fun a => decide (fate a = .leaves)

/-- **A turn in which an item leaves makes progress.** -/
theorem pending_rest (h : ∃ a ∈ l.take k, fate a = .leaves) : pending fate (rest fate k l) < pending fate l := by
  have hstay : ((l.take k).filter fun a => decide (fate a = .stays)).countP (fun a => decide (fate a = .leaves)) = 0 := by
    rw [List.countP_eq_zero]
    intro a ha
    have hs := (List.mem_filter.1 ha).2
    rw [decide_eq_true_eq] at hs
    simp [hs]
  have hpos : 0 < (l.take k).countP fun a => decide (fate a = .leaves) := by
    obtain ⟨a, ha, hl⟩ := h
    exact List.countP_pos_iff.2 ⟨a, ha, decide_eq_true hl⟩
  have hsplit : pending fate l = (l.take k).countP (fun a => decide (fate a = .leaves)) +
      (l.drop k).countP fun a => decide (fate a = .leaves) := by
    rw [pending, ← List.countP_append, List.take_append_drop]
  rw [hsplit, pending, rest, List.countP_append, hstay]
  omega

/-- A turn adds nothing and reorders nothing. -/
theorem rest_sublist (fate : α → Fate) (k : Nat) (l : List α) : (rest fate k l).Sublist l := by
  have hfilter : ((l.take k).filter fun a => decide (fate a = .stays)).Sublist (l.take k) := List.filter_sublist
  have happ := hfilter.append (List.Sublist.refl (l.drop k))
  rwa [List.take_append_drop] at happ

/-- **What stays is there after every turn.** -/
theorem mem_rest {a : α} (h : a ∈ l) (hs : fate a = .stays) : a ∈ rest fate k l := by
  rw [← List.take_append_drop k l, List.mem_append] at h
  rcases h with h | h
  · exact List.mem_append_left _ (List.mem_filter.2 ⟨h, decide_eq_true hs⟩)
  · exact List.mem_append_right _ h

theorem not_any_stops (h : ¬ ((l.take k).any fun a => decide (fate a = .stops)) = true) :
    ∀ a ∈ l.take k, fate a ≠ .stops := by
  intro a ha hs
  exact h (List.any_eq_true.2 ⟨a, ha, decide_eq_true hs⟩)

/-- The ending tells the list: it stopped at what it reached, or there was nothing to reach and nothing stayed. -/
theorem work_eq_some {e : Ending} (h : work fate k n l = some e) :
    (e = .stopped ∧ reaches fate k l = true) ∨
      (e = .finished ∧ reaches fate k l = false ∧ (0 < k → ∀ a ∈ l, fate a ≠ .stays)) := by
  induction n generalizing l with
  | zero => cases h
  | succ n ih =>
    rw [work] at h
    by_cases he : (l.take k).isEmpty = true
    · rw [if_pos he, Option.some.injEq] at h
      refine .inr ⟨h.symm, ?_, ?_⟩
      · rcases List.take_eq_nil_iff.1 (List.isEmpty_iff.1 he) with rfl | rfl
        · exact reaches_zero l
        · exact reaches_nil k
      · intro hk a ha
        rcases List.take_eq_nil_iff.1 (List.isEmpty_iff.1 he) with rfl | rfl
        · omega
        · cases ha
    · rw [if_neg he] at h
      by_cases hs : ((l.take k).any fun a => decide (fate a = .stops)) = true
      · rw [if_pos hs, Option.some.injEq] at h
        obtain ⟨a, ha, hf⟩ := List.any_eq_true.1 hs
        exact .inl ⟨h.symm, reaches_of_mem_take ⟨a, ha, of_decide_eq_true hf⟩⟩
      · rw [if_neg hs] at h
        have hr := reaches_rest (not_any_stops hs)
        rcases ih h with ⟨h1, h2⟩ | ⟨h1, h2, h3⟩
        · exact .inl ⟨h1, hr ▸ h2⟩
        · exact .inr ⟨h1, hr ▸ h2, fun hk a ha hst => h3 hk a (mem_rest ha hst) hst⟩

/-- **The work ends exactly where it stops at something it reaches or where nothing stays.** -/
theorem ends_iff : (∃ n e, work fate k n l = some e) ↔
    reaches fate k l = true ∨ (0 < k → ∀ a ∈ l, fate a ≠ .stays) := by
  constructor
  · rintro ⟨n, e, h⟩
    rcases work_eq_some h with ⟨-, h⟩ | ⟨-, -, h⟩
    · exact .inl h
    · exact .inr h
  · intro h
    -- by the number of items that have yet to leave
    induction hp : pending fate l using Nat.strongRecOn generalizing l with
    | _ m ih =>
      by_cases he : (l.take k).isEmpty = true
      · exact ⟨1, .finished, by rw [work, if_pos he]⟩
      · by_cases hs : ((l.take k).any fun a => decide (fate a = .stops)) = true
        · exact ⟨1, .stopped, by rw [work, if_neg he, if_pos hs]⟩
        · have hnot := not_any_stops hs
          have hleaves : ∃ a ∈ l.take k, fate a = .leaves := by
            rcases h with hr | hno
            · exact exists_leaves hr hnot
            · obtain ⟨a, ha⟩ := List.exists_mem_of_ne_nil _ fun hn => he (List.isEmpty_iff.2 hn)
              have hk : 0 < k := by
                by_contra hk
                rw [Nat.eq_zero_of_not_pos hk] at ha
                cases ha
              refine ⟨a, ha, ?_⟩
              cases hf : fate a with
              | leaves => rfl
              | stays => exact absurd hf (hno hk a (List.mem_of_mem_take ha))
              | stops => exact absurd hf (hnot a ha)
          have hnext : reaches fate k (rest fate k l) = true ∨ (0 < k → ∀ a ∈ rest fate k l, fate a ≠ .stays) := by
            rcases h with hr | hno
            · exact .inl ((reaches_rest hnot).trans hr)
            · exact .inr fun hk a ha => hno hk a ((rest_sublist fate k l).subset ha)
          obtain ⟨n, e, hn⟩ := ih _ (hp ▸ pending_rest hleaves) hnext rfl
          exact ⟨n + 1, e, by rw [work, if_neg he, if_neg hs, hn]⟩

end Worklist
end Lib
