import Mathlib.Data.List.Basic
/-!
# Length-prefixed parts

Parts written one after another, each behind a header of its length.  A header that can be told from whatever follows it
makes the whole readable in one way only.
-/
namespace Lib

variable {β : Type*}

/-- Headers end where they end: no header goes on as another one does. -/
structure Delimited (header : Nat → List β) : Prop where
  cut : ∀ m n x y, header m ++ x = header n ++ y → m = n ∧ x = y
  ne_nil : ∀ n, header n ≠ []

/-- A part behind the header of its length. -/
def frame (header : Nat → List β) (raw : List β) : List β := header raw.length ++ raw

def frames (header : Nat → List β) (parts : List (List β)) : List β := parts.flatMap (frame header)

variable {header : Nat → List β}

theorem Delimited.frame_cut (h : Delimited header) {raw other x y : List β}
    (heq : frame header raw ++ x = frame header other ++ y) : raw = other ∧ x = y := by
  unfold frame at heq
  rw [List.append_assoc, List.append_assoc] at heq
  obtain ⟨hlength, hrest⟩ := h.cut _ _ _ _ heq
  exact List.append_inj hrest hlength

theorem Delimited.frame_ne_nil (h : Delimited header) (raw : List β) : frame header raw ≠ [] := fun hnil =>
  h.ne_nil _ (List.append_eq_nil_iff.1 hnil).1

/-- **Framed parts are read in one way.** -/
theorem Delimited.frames_inj (h : Delimited header) : ∀ {parts others : List (List β)},
    frames header parts = frames header others → parts = others
  | [], [], _ => rfl
  | [], other :: others, heq => absurd (List.append_eq_nil_iff.1 heq.symm).1 (h.frame_ne_nil other)
  | part :: parts, [], heq => absurd (List.append_eq_nil_iff.1 heq).1 (h.frame_ne_nil part)
  | part :: parts, other :: others, heq => by
    obtain ⟨hpart, hrest⟩ := h.frame_cut heq
    rw [hpart, h.frames_inj hrest]

/-- What stands before the first mark is told from what follows it. -/
theorem append_mark_inj {mark : β} : ∀ {l m x y : List β}, mark ∉ l → mark ∉ m → l ++ mark :: x = m ++ mark :: y →
    l = m ∧ x = y
  | [], [], _, _, _, _, heq => ⟨rfl, (List.cons.inj heq).2⟩
  | [], b :: _, _, _, _, hm, heq => by
    rw [(List.cons.inj heq).1] at hm
    exact absurd List.mem_cons_self hm
  | a :: _, [], _, _, hl, _, heq => by
    rw [← (List.cons.inj heq).1] at hl
    exact absurd List.mem_cons_self hl
  | a :: l, b :: m, _, _, hl, hm, heq => by
    obtain ⟨hab, hrest⟩ := List.cons.inj heq
    have hl' : mark ∉ l := fun h => hl (List.mem_cons_of_mem _ h)
    have hm' : mark ∉ m := fun h => hm (List.mem_cons_of_mem _ h)
    obtain ⟨hlm, hxy⟩ := append_mark_inj hl' hm' hrest
    exact ⟨by rw [hab, hlm], hxy⟩

/-- A header closed by a mark that is not in it. -/
theorem Delimited.of_mark {mark : β} {digits : Nat → List β} (hmark : ∀ n, mark ∉ digits n)
    (hinj : ∀ m n, digits m = digits n → m = n) : Delimited fun n => digits n ++ [mark] where
  cut m n x y heq := by
    rw [List.append_assoc, List.append_assoc] at heq
    obtain ⟨hdigits, hrest⟩ := append_mark_inj (hmark m) (hmark n) heq
    exact ⟨hinj m n hdigits, hrest⟩
  ne_nil _ := List.append_ne_nil_of_right_ne_nil _ (List.cons_ne_nil _ _)

end Lib
