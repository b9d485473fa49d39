import Mathlib.Tactic.Common
/-!
# Regular expressions

What a backtracking matcher takes at the start of a text: what is left after each way to match, in the order it tries
them, of which it takes the first.  `Lang` is what matches at all, whatever the order.
-/
namespace Lib

inductive Regex (α : Type)
  | empty
  | one (p : α → Bool)
  /-- At least so many, greedy. -/
  | many (p : α → Bool) (least : Nat)
  | seq (a b : Regex α)
  | alt (a b : Regex α)

namespace Regex

variable {α β : Type}

/-- What is left after `least` or more of a class, after the most first. -/
def manyRests (p : α → Bool) : Nat → List α → List (List α)
  | n, [] => if n = 0 then [[]] else []
  | n, c :: l => (if p c then manyRests p (n - 1) l else []) ++ if n = 0 then [c :: l] else []

def rests : Regex α → List α → List (List α)
  | empty, l => [l]
  | one _, [] => []
  | one p, c :: l => if p c then [l] else []
  | many p n, l => manyRests p n l
  | seq a b, l => (a.rests l).flatMap b.rests
  | alt a b, l => a.rests l ++ b.rests l

def Lang : Regex α → List α → Prop
  | empty, w => w = []
  | one p, w => ∃ c, w = [c] ∧ p c = true
  | many p n, w => n ≤ w.length ∧ ∀ c ∈ w, p c = true
  | seq a b, w => ∃ u v, w = u ++ v ∧ a.Lang u ∧ b.Lang v
  | alt a b, w => a.Lang w ∨ b.Lang w

/-! ## The matcher takes what the language has -/

theorem mem_manyRests {p : α → Bool} {r : List α} : ∀ {n : Nat} {l : List α},
    r ∈ manyRests p n l ↔ ∃ w, l = w ++ r ∧ n ≤ w.length ∧ ∀ c ∈ w, p c = true
  | n, [] => by
    unfold manyRests
    constructor
    · intro h
      split at h
      · rename_i hn
        rw [List.mem_singleton] at h
        exact ⟨[], by rw [h]; rfl, by omega, fun c hc => absurd hc List.not_mem_nil⟩
      · exact absurd h List.not_mem_nil
    · rintro ⟨w, hw, hn, -⟩
      obtain ⟨rfl, rfl⟩ := List.append_eq_nil_iff.1 hw.symm
      rw [if_pos (by simpa using hn)]
      exact List.mem_singleton.2 rfl
  | n, c :: l => by
    rw [manyRests, List.mem_append]
    constructor
    · rintro (h | h)
      · split at h
        · rename_i hc
          obtain ⟨w, rfl, hn, hw⟩ := mem_manyRests.1 h
          refine ⟨c :: w, rfl, by simp only [List.length_cons]; omega, ?_⟩
          rintro d (_ | ⟨_, hd⟩)
          · exact hc
          · exact hw d hd
        · exact absurd h List.not_mem_nil
      · split at h
        · rename_i hn
          rw [List.mem_singleton] at h
          exact ⟨[], by rw [h]; rfl, by omega, fun d hd => absurd hd List.not_mem_nil⟩
        · exact absurd h List.not_mem_nil
    · rintro ⟨w, hw, hn, hall⟩
      cases w with
      | nil =>
        refine .inr ?_
        rw [if_pos (Nat.le_zero.1 hn)]
        exact List.mem_singleton.2 hw.symm
      | cons d w =>
        obtain ⟨rfl, rfl⟩ := List.cons.inj hw
        rw [if_pos (hall c List.mem_cons_self)]
        refine .inl (mem_manyRests.2 ⟨w, rfl, ?_, fun d hd => hall d (List.mem_cons_of_mem c hd)⟩)
        simp only [List.length_cons] at hn
        omega

theorem mem_rests {r : List α} : ∀ {e : Regex α} {l : List α}, r ∈ e.rests l ↔ ∃ w, l = w ++ r ∧ e.Lang w
  | empty, l => by simp [rests, Lang, eq_comm]
  | one p, [] => by
    unfold rests Lang
    constructor
    · intro h
      exact absurd h List.not_mem_nil
    · rintro ⟨w, hw, c, rfl, -⟩
      cases hw
  | one p, c :: l => by
    unfold rests Lang
    constructor
    · intro h
      split at h
      · rename_i hc
        rw [List.mem_singleton] at h
        exact ⟨[c], by rw [h]; rfl, c, rfl, hc⟩
      · exact absurd h List.not_mem_nil
    · rintro ⟨w, hw, d, rfl, hd⟩
      obtain ⟨rfl, rfl⟩ := List.cons.inj hw
      rw [if_pos hd]
      exact List.mem_singleton.2 rfl
  | many p n, l => mem_manyRests
  | seq a b, l => by
    simp only [rests, Lang, List.mem_flatMap]
    constructor
    · rintro ⟨m, hm, hr⟩
      obtain ⟨u, rfl, hu⟩ := mem_rests.1 hm
      obtain ⟨v, rfl, hv⟩ := mem_rests.1 hr
      exact ⟨u ++ v, (List.append_assoc u v r).symm, u, v, rfl, hu, hv⟩
    · rintro ⟨w, rfl, u, v, rfl, hu, hv⟩
      exact ⟨v ++ r, mem_rests.2 ⟨u, List.append_assoc u v r, hu⟩, mem_rests.2 ⟨v, rfl, hv⟩⟩
  | alt a b, l => by
    simp only [rests, Lang, List.mem_append, mem_rests]
    constructor
    · rintro (⟨w, hw, h⟩ | ⟨w, hw, h⟩)
      · exact ⟨w, hw, .inl h⟩
      · exact ⟨w, hw, .inr h⟩
    · rintro ⟨w, hw, h | h⟩
      · exact .inl ⟨w, hw, h⟩
      · exact .inr ⟨w, hw, h⟩

/-! ## Greed -/

/-- What the matcher leaves does not go on with the class. -/
def Sated (p : α → Bool) (r : List α) : Prop := ∀ c l, r = c :: l → p c = false

def Greedy (p : α → Bool) (e : Regex α) : Prop := ∀ l r, (e.rests l).head? = some r → Sated p r

theorem manyRests_zero_ne_nil (p : α → Bool) (l : List α) : manyRests p 0 l ≠ [] := by
  intro h
  have hmem : l ∈ manyRests p 0 l := mem_manyRests.2 ⟨[], rfl, Nat.le_refl _, fun c hc => absurd hc List.not_mem_nil⟩
  rw [h] at hmem
  exact List.not_mem_nil hmem

theorem greedy_many (p : α → Bool) (n : Nat) : Greedy p (many p n) := by
  intro l
  simp only [rests]
  induction l generalizing n with
  | nil =>
    intro r h c l hr
    unfold manyRests at h
    split at h
    · rw [List.head?_cons, Option.some.injEq] at h
      rw [← h] at hr
      cases hr
    · cases h
  | cons a l ih =>
    intro r h
    rw [manyRests] at h
    by_cases ha : p a = true
    · rw [if_pos ha] at h
      rw [List.head?_append] at h
      cases hn : (manyRests p (n - 1) l).head? with
      | none =>
        have hpos : n ≠ 0 := by
          rintro rfl
          exact manyRests_zero_ne_nil p l (List.head?_eq_none_iff.1 hn)
        rw [hn, if_neg hpos] at h
        cases h
      | some r' =>
        rw [hn, Option.some_or, Option.some.injEq] at h
        exact ih (n - 1) r (h ▸ hn)
    · rw [if_neg ha, List.nil_append] at h
      split at h
      · rw [List.head?_cons, Option.some.injEq] at h
        rintro c l' rfl
        cases h
        exact Bool.eq_false_iff.2 ha
      · cases h

theorem Greedy.seq {p : α → Bool} {b : Regex α} (a : Regex α) (h : Greedy p b) : Greedy p (seq a b) := by
  intro l r hr
  simp only [rests] at hr
  rw [List.head?_flatMap] at hr
  obtain ⟨m, -, hm⟩ := List.exists_of_findSome?_eq_some hr
  exact h m r hm

theorem Greedy.seq_empty {p : α → Bool} {a : Regex α} (h : Greedy p a) : Greedy p (Regex.seq a empty) := by
  intro l r hr
  have hrests : (Regex.seq a empty).rests l = a.rests l := by
    simp only [rests]
    exact List.flatMap_singleton' _
  rw [hrests] at hr
  exact h l r hr

/-! ## What the words are made of -/

def comap (g : β → α) : Regex α → Regex β
  | empty => empty
  | one p => one (p ∘ g)
  | many p n => many (p ∘ g) n
  | seq a b => seq (a.comap g) (b.comap g)
  | alt a b => alt (a.comap g) (b.comap g)

theorem lang_comap {g : β → α} : ∀ {e : Regex α} {w : List β}, (e.comap g).Lang w ↔ e.Lang (w.map g)
  | empty, w => by simp [comap, Lang]
  | one p, w => by
    simp only [comap, Lang, Function.comp_apply, List.map_eq_singleton_iff]
    constructor
    · rintro ⟨c, rfl, hc⟩
      exact ⟨g c, ⟨c, rfl, rfl⟩, hc⟩
    · rintro ⟨_, ⟨c, rfl, rfl⟩, hc⟩
      exact ⟨c, rfl, hc⟩
  | many p n, w => by simp [comap, Lang]
  | seq a b, w => by
    simp only [comap, Lang]
    constructor
    · rintro ⟨u, v, rfl, hu, hv⟩
      exact ⟨u.map g, v.map g, List.map_append, lang_comap.1 hu, lang_comap.1 hv⟩
    · rintro ⟨u, v, hw, hu, hv⟩
      obtain ⟨u', v', rfl, rfl, rfl⟩ := List.map_eq_append_iff.1 hw
      exact ⟨u', v', rfl, lang_comap.2 hu, lang_comap.2 hv⟩
  | alt a b, w => by simp [comap, Lang, lang_comap]

/-- No class of the expression has the character. -/
def avoids (c : α) : Regex α → Bool
  | empty => true
  | one p | many p _ => !p c
  | seq a b | alt a b => a.avoids c && b.avoids c

theorem Lang.not_mem {c : α} : ∀ {e : Regex α} {w : List α}, e.Lang w → e.avoids c = true → c ∉ w
  | empty, w, h, _ => by
    rw [show w = [] from h]
    exact List.not_mem_nil
  | one p, w, h, hc => by
    obtain ⟨d, rfl, hd⟩ := h
    rintro (_ | ⟨_, hm⟩)
    · rw [avoids, hd] at hc
      cases hc
    · exact List.not_mem_nil hm
  | many p n, w, h, hc => by
    intro hm
    rw [avoids, h.2 c hm] at hc
    cases hc
  | seq a b, w, h, hc => by
    obtain ⟨u, v, rfl, hu, hv⟩ := h
    rw [avoids, Bool.and_eq_true] at hc
    intro hm
    rcases List.mem_append.1 hm with hm | hm
    · exact hu.not_mem hc.1 hm
    · exact hv.not_mem hc.2 hm
  | alt a b, w, h, hc => by
    rw [avoids, Bool.and_eq_true] at hc
    rcases h with h | h
    · exact h.not_mem hc.1
    · exact h.not_mem hc.2

def minLength : Regex α → Nat
  | empty => 0
  | one _ => 1
  | many _ n => n
  | seq a b => a.minLength + b.minLength
  | alt a b => min a.minLength b.minLength

theorem Lang.minLength_le : ∀ {e : Regex α} {w : List α}, e.Lang w → e.minLength ≤ w.length
  | empty, _, _ => Nat.zero_le _
  | one _, _, h => by
    obtain ⟨d, rfl, -⟩ := h
    exact Nat.le_refl _
  | many _ _, _, h => h.1
  | seq _ _, _, h => by
    obtain ⟨u, v, rfl, hu, hv⟩ := h
    rw [List.length_append]
    exact Nat.add_le_add hu.minLength_le hv.minLength_le
  | alt _ _, _, h => by
    rcases h with h | h
    · exact Nat.le_trans (Nat.min_le_left _ _) h.minLength_le
    · exact Nat.le_trans (Nat.min_le_right _ _) h.minLength_le

/-- The character may be a word's first. -/
def first (c : α) : Regex α → Bool
  | empty => false
  | one p | many p _ => p c
  | seq a b => a.first c || (a.minLength == 0 && b.first c)
  | alt a b => a.first c || b.first c

theorem Lang.first {c : α} : ∀ {e : Regex α} {w : List α}, e.Lang (c :: w) → e.first c = true
  | empty, _, h => by cases h
  | one p, _, h => by
    obtain ⟨d, hw, hd⟩ := h
    cases hw
    exact hd
  | many p n, _, h => h.2 c List.mem_cons_self
  | seq a b, w, h => by
    obtain ⟨u, v, hw, hu, hv⟩ := h
    rw [Regex.first, Bool.or_eq_true, Bool.and_eq_true, beq_iff_eq]
    cases u with
    | nil =>
      rw [List.nil_append] at hw
      rw [← hw] at hv
      exact .inr ⟨Nat.le_zero.1 hu.minLength_le, hv.first⟩
    | cons d u =>
      obtain ⟨rfl, -⟩ := List.cons.inj hw
      exact .inl hu.first
  | alt a b, _, h => by
    rw [Regex.first, Bool.or_eq_true]
    rcases h with h | h
    · exact .inl h.first
    · exact .inr h.first

/-- The character may be a word's last. -/
def last (c : α) : Regex α → Bool
  | empty => false
  | one p | many p _ => p c
  | seq a b => b.last c || (b.minLength == 0 && a.last c)
  | alt a b => a.last c || b.last c

theorem Lang.last {c : α} : ∀ {e : Regex α} {w : List α}, e.Lang w → w.getLast? = some c → e.last c = true
  | empty, _, h, hc => by
    rw [show _ = [] from h] at hc
    cases hc
  | one p, _, h, hc => by
    obtain ⟨d, rfl, hd⟩ := h
    cases hc
    exact hd
  | many p n, _, h, hc => h.2 c (List.mem_of_getLast? hc)
  | seq a b, w, h, hc => by
    obtain ⟨u, v, rfl, hu, hv⟩ := h
    rw [Regex.last, Bool.or_eq_true, Bool.and_eq_true, beq_iff_eq]
    cases v with
    | nil =>
      rw [List.append_nil] at hc
      exact .inr ⟨Nat.le_zero.1 hv.minLength_le, hu.last hc⟩
    | cons d v =>
      rw [List.getLast?_append, List.getLast?_cons, Option.some_or, ← List.getLast?_cons] at hc
      exact .inl (hv.last hc)
  | alt a b, _, h, hc => by
    rw [Regex.last, Bool.or_eq_true]
    rcases h with h | h
    · exact .inl (h.last hc)
    · exact .inr (h.last hc)

end Regex
end Lib
