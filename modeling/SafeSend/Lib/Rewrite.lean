import SafeSend.Lib.Regex
/-!
# Substituting what a pattern matches

A scan from left to right takes the first match at each place and goes on behind it: the text falls into characters that
are kept and words that are found.  `Free` is that a pattern has no match anywhere; a scan finds nothing exactly then,
and a text cut at a character no match can have is free where its parts are.
-/
namespace Lib

variable {α β : Type}

/-! ## Scanning -/

inductive Token (α : Type)
  | kept (c : α)
  | found (w : List α)
  deriving DecidableEq

namespace Token

def text : Token α → List α
  | kept c => [c]
  | found w => w

def isFound : Token α → Bool
  | kept _ => false
  | found _ => true

/-- A kept character stays, a found word is replaced. -/
def write (f : List α → List α) : Token α → List α
  | kept c => [c]
  | found w => f w

def map (g : α → β) : Token α → Token β
  | kept c => kept (g c)
  | found w => found (w.map g)

end Token

open Token

/-- What a text falls into, where `m` gives the length of the match at a place behind a character; `skip` characters of
the word found last are still to come. -/
def tokens (m : Option α → List α → Option Nat) : Option α → Nat → List α → List (Token α)
  | _, _, [] => []
  | _, skip + 1, c :: l => tokens m (some c) skip l
  | prev, 0, c :: l =>
    match m prev (c :: l) with
    | some (n + 1) => .found ((c :: l).take (n + 1)) :: tokens m (some c) n l
    | _ => .kept c :: tokens m (some c) 0 l

/-- A match is not empty and lies within the text. -/
def Sound (m : Option α → List α → Option Nat) : Prop := ∀ prev l n, m prev l = some n → 0 < n ∧ n ≤ l.length

/-- How a scan divides a text. -/
inductive Scanned (m : Option α → List α → Option Nat) : Option α → List α → List (Token α) → Prop
  | nil (prev : Option α) : Scanned m prev [] []
  | kept {prev : Option α} {c : α} {l : List α} {ts : List (Token α)} (hm : m prev (c :: l) = none)
      (h : Scanned m (some c) l ts) : Scanned m prev (c :: l) (.kept c :: ts)
  | found {prev : Option α} {w l : List α} {ts : List (Token α)} (hw : w ≠ []) (hm : m prev (w ++ l) = some w.length)
      (h : Scanned m w.getLast? l ts) : Scanned m prev (w ++ l) (.found w :: ts)

variable {m : Option α → List α → Option Nat}

theorem tokens_skip (m : Option α → List α → Option Nat) : ∀ (w l : List α) (c : α),
    tokens m (some c) w.length (w ++ l) = tokens m ((c :: w).getLast?) 0 l
  | [], l, c => rfl
  | d :: w, l, c => by
    rw [List.length_cons, List.cons_append, tokens, tokens_skip m w l d, List.getLast?_cons_cons]

theorem scanned_tokens (hm : Sound m) : ∀ (n : Nat) (prev : Option α) (l : List α), l.length ≤ n →
    Scanned m prev l (tokens m prev 0 l)
  | _, prev, [], _ => .nil prev
  | n + 1, prev, c :: l, hn => by
    have hlength : l.length ≤ n := Nat.le_of_succ_le_succ hn
    cases hfound : m prev (c :: l) with
    | none =>
      rw [tokens, hfound]
      exact .kept hfound (scanned_tokens hm n (some c) l hlength)
    | some k =>
      obtain ⟨hpos, hle⟩ := hm prev (c :: l) k hfound
      obtain ⟨k, rfl⟩ := Nat.exists_eq_succ_of_ne_zero (Nat.pos_iff_ne_zero.1 hpos)
      obtain ⟨w, l', rfl, rfl⟩ : ∃ w l', l = w ++ l' ∧ w.length = k :=
        ⟨l.take k, l.drop k, (List.take_append_drop k l).symm,
          List.length_take_of_le (by simpa using Nat.le_of_succ_le_succ hle)⟩
      rw [tokens, hfound]
      simp only
      rw [tokens_skip m w l' c, List.take_succ_cons, List.take_left]
      refine Scanned.found (w := c :: w) (List.cons_ne_nil c w) hfound (scanned_tokens hm n _ l' ?_)
      rw [List.length_append] at hlength
      omega

theorem Scanned.text {prev : Option α} {l : List α} {ts : List (Token α)} (h : Scanned m prev l ts) :
    ts.flatMap Token.text = l := by
  induction h with
  | nil => rfl
  | kept hm h ih => rw [List.flatMap_cons, ih]; rfl
  | found hw hm h ih => rw [List.flatMap_cons, ih]; rfl

theorem Scanned.eq_none {prev : Option α} {l : List α} {c : α} {ts : List (Token α)}
    (h : Scanned m prev l (.kept c :: ts)) : m prev l = none := by
  cases h with
  | kept hm _ => exact hm

theorem Scanned.eq_some {prev : Option α} {l w : List α} {ts : List (Token α)}
    (h : Scanned m prev (w ++ l) (.found w :: ts)) : m prev (w ++ l) = some w.length := by
  generalize hl : w ++ l = l' at h ⊢
  cases h with
  | found _ hm _ => exact hm

/-- Behind some of its tokens a scan is one of the rest. -/
theorem Scanned.behind {ts' : List (Token α)} : ∀ {ts : List (Token α)} {prev : Option α} {l : List α},
    Scanned m prev l (ts ++ ts') →
      Scanned m ((ts.flatMap Token.text).getLast?.or prev) (ts'.flatMap Token.text) ts'
  | [], prev, l, h => by
    have hrest : Scanned m prev l ts' := h
    rw [hrest.text]
    exact hrest
  | .kept c :: ts, prev, _, .kept _ h => by
    have hrest := h.behind
    rw [List.flatMap_cons, Token.text, List.getLast?_append, Option.or_assoc]
    exact hrest
  | .found w :: ts, prev, _, .found hw _ h => by
    have hrest := h.behind
    rw [List.flatMap_cons, Token.text, List.getLast?_append, Option.or_assoc]
    obtain ⟨d, hd⟩ := Option.isSome_iff_exists.1 (List.getLast?_isSome.2 hw)
    rw [hd] at hrest ⊢
    exact hrest

/-- Where nothing matches at any place of its beginning, a scan keeps it. -/
theorem Scanned.kept_through : ∀ {x y : List α} {prev : Option α} {ts : List (Token α)}, Scanned m prev (x ++ y) ts →
    (∀ a b, x = a ++ b → b ≠ [] → m (a.getLast?.or prev) (b ++ y) = none) →
      ∃ ts', ts = x.map .kept ++ ts' ∧ Scanned m (x.getLast?.or prev) y ts'
  | [], _, _, ts, h, _ => ⟨ts, rfl, h⟩
  | c :: x, y, prev, ts, h, hnone => by
    have hstart : m prev (c :: (x ++ y)) = none := hnone [] (c :: x) rfl (List.cons_ne_nil c x)
    rw [List.cons_append] at h
    generalize hl : c :: (x ++ y) = l at h hstart
    cases h with
    | nil => cases hl
    | kept hm h =>
      obtain ⟨rfl, rfl⟩ := List.cons.inj hl
      obtain ⟨ts', rfl, hrest⟩ := h.kept_through fun a b hx hb => by
        have hat := hnone (c :: a) b (by rw [hx]; rfl) hb
        rw [List.getLast?_cons, Option.some_or] at hat
        cases ha : a.getLast? with
        | none => rw [ha] at hat; exact hat
        | some d => rw [ha] at hat; exact hat
      refine ⟨ts', rfl, ?_⟩
      rw [List.getLast?_cons, Option.some_or]
      cases hx : x.getLast? with
      | none => rw [hx] at hrest; exact hrest
      | some d => rw [hx] at hrest; exact hrest
    | found hw hm h =>
      rw [hstart] at hm
      cases hm

/-- A place of the text lies between two tokens, or in a found word. -/
theorem cut_text : ∀ {ts : List (Token α)} {x y : List α}, ts.flatMap Token.text = x ++ y →
    (∃ ts₁ ts₂, ts = ts₁ ++ ts₂ ∧ ts₁.flatMap Token.text = x ∧ ts₂.flatMap Token.text = y) ∨
      ∃ ts₁ u v ts₂, ts = ts₁ ++ .found (u ++ v) :: ts₂ ∧ u ≠ [] ∧ v ≠ [] ∧ ts₁.flatMap Token.text ++ u = x ∧
        v ++ ts₂.flatMap Token.text = y
  | ts, [], y, h => .inl ⟨[], ts, rfl, rfl, h⟩
  | [], _ :: _, _, h => by cases h
  | .kept c :: ts, d :: x, y, h => by
    obtain ⟨rfl, htail⟩ := List.cons.inj h
    rcases cut_text htail with ⟨ts₁, ts₂, rfl, hx, hy⟩ | ⟨ts₁, u, v, ts₂, rfl, hu, hv, hx, hy⟩
    · exact .inl ⟨.kept c :: ts₁, ts₂, rfl, by rw [List.flatMap_cons, hx]; rfl, hy⟩
    · exact .inr ⟨.kept c :: ts₁, u, v, ts₂, rfl, hu, hv, by rw [List.flatMap_cons, List.append_assoc, hx]; rfl, hy⟩
  | .found w :: ts, d :: x, y, h => by
    have hcut : w ++ ts.flatMap Token.text = d :: x ++ y := h
    rcases List.append_eq_append_iff.1 hcut with ⟨x', hw, htail⟩ | ⟨z, rfl, hrest⟩
    · rcases cut_text htail with ⟨ts₁, ts₂, rfl, hx, hy⟩ | ⟨ts₁, u, v, ts₂, rfl, hu, hv, hx, hy⟩
      · exact .inl ⟨.found w :: ts₁, ts₂, rfl, by rw [List.flatMap_cons, hx, hw]; rfl, hy⟩
      · refine .inr ⟨.found w :: ts₁, u, v, ts₂, rfl, hu, hv, ?_, hy⟩
        rw [List.flatMap_cons, List.append_assoc, hx, hw]
        rfl
    · cases z with
      | nil =>
        refine .inl ⟨[.found (d :: x)], ts, by rw [List.append_nil]; rfl, by simp [Token.text], hrest.symm⟩
      | cons e z => exact .inr ⟨[], d :: x, e :: z, ts, rfl, List.cons_ne_nil d x, List.cons_ne_nil e z, rfl, hrest.symm⟩

/-- The text with what was found replaced. -/
def rewrite (m : Option α → List α → Option Nat) (f : List α → List α) (l : List α) : List α :=
  (tokens m none 0 l).flatMap (Token.write f)

theorem write_of_kept {f : List α → List α} : ∀ {ts : List (Token α)}, (∀ t ∈ ts, t.isFound = false) →
    ts.flatMap (Token.write f) = ts.flatMap Token.text
  | [], _ => rfl
  | .kept c :: ts, h => by
    rw [List.flatMap_cons, List.flatMap_cons, write_of_kept fun t ht => h t (List.mem_cons_of_mem _ ht)]
    rfl
  | .found w :: ts, h => absurd (h _ List.mem_cons_self) (by simp [isFound])

/-- A character no replacement has is one that was kept. -/
theorem kept_of_write {f : List α → List α} {c : α} {y : List α} : ∀ {ts : List (Token α)} {x : List α},
    (∀ w, .found w ∈ ts → c ∉ f w) → ts.flatMap (Token.write f) = x ++ c :: y →
      ∃ ts₁ ts₂, ts = ts₁ ++ .kept c :: ts₂ ∧ ts₁.flatMap (Token.write f) = x ∧ ts₂.flatMap (Token.write f) = y
  | [], x, _, h => by simp at h
  | .kept d :: ts, [], _, h => by
    obtain ⟨rfl, hy⟩ := List.cons.inj h
    exact ⟨[], ts, rfl, rfl, hy⟩
  | .kept d :: ts, e :: x, hf, h => by
    obtain ⟨rfl, htail⟩ := List.cons.inj h
    obtain ⟨ts₁, ts₂, rfl, hx, hy⟩ := kept_of_write (fun w hw => hf w (List.mem_cons_of_mem _ hw)) htail
    exact ⟨.kept d :: ts₁, ts₂, rfl, by rw [List.flatMap_cons, hx]; rfl, hy⟩
  | .found w :: ts, x, hf, h => by
    have hcut : f w ++ ts.flatMap (Token.write f) = x ++ c :: y := h
    rcases List.append_eq_append_iff.1 hcut with ⟨x', rfl, htail⟩ | ⟨z, hz, hrest⟩
    · obtain ⟨ts₁, ts₂, rfl, hx, hy⟩ := kept_of_write (fun w hw => hf w (List.mem_cons_of_mem _ hw)) htail
      exact ⟨.found w :: ts₁, ts₂, rfl, by rw [List.flatMap_cons, hx]; rfl, hy⟩
    · cases z with
      | nil =>
        rw [List.append_nil] at hz
        obtain ⟨ts₁, ts₂, rfl, hx, hy⟩ := kept_of_write (x := []) (fun w hw => hf w (List.mem_cons_of_mem _ hw)) hrest.symm
        exact ⟨.found w :: ts₁, ts₂, rfl, by rw [List.flatMap_cons, hx, ← hz]; simp [Token.write], hy⟩
      | cons d z =>
        obtain ⟨rfl, -⟩ := List.cons.inj hrest
        exact absurd (by rw [hz]; simp) (hf w List.mem_cons_self)

/-- A character no found word has is one that was kept. -/
theorem kept_of_text {ts : List (Token α)} {x y : List α} {c : α} (hfound : ∀ w, .found w ∈ ts → c ∉ w)
    (h : ts.flatMap Token.text = x ++ c :: y) :
    ∃ ts₁ ts₂, ts = ts₁ ++ .kept c :: ts₂ ∧ ts₁.flatMap Token.text = x ∧ ts₂.flatMap Token.text = y := by
  have hwrite : Token.write id = (Token.text : Token α → List α) := by
    funext t
    cases t <;> rfl
  rw [← hwrite] at h ⊢
  exact kept_of_write hfound h

/-- A text without a character that every replacement has is kept whole. -/
theorem eq_kept_of_write {f : List α → List α} {d : α} : ∀ {ts : List (Token α)} {x : List α},
    (∀ w, .found w ∈ ts → d ∈ f w) → ts.flatMap (Token.write f) = x → d ∉ x → ts = x.map .kept
  | [], _, _, rfl, _ => rfl
  | .kept c :: ts, _, hf, rfl, hd => by
    have h : ts = (ts.flatMap (Token.write f)).map .kept :=
      eq_kept_of_write (fun w hw => hf w (List.mem_cons_of_mem _ hw)) rfl fun hm => hd (List.mem_cons_of_mem _ hm)
    rw [List.flatMap_cons, Token.write, List.singleton_append, List.map_cons, ← h]
  | .found w :: ts, _, hf, rfl, hd => absurd (List.mem_append_left _ (hf w List.mem_cons_self)) hd

@[simp] theorem text_kept (x : List α) : (x.map Token.kept).flatMap Token.text = x := by
  induction x with
  | nil => rfl
  | cons c x ih => rw [List.map_cons, List.flatMap_cons, ih]; rfl

theorem write_kept (f : List α → List α) (x : List α) : (x.map Token.kept).flatMap (Token.write f) = x := by
  rw [write_of_kept (by simp [isFound]), text_kept]

theorem eq_kept : ∀ {ts : List (Token α)}, (∀ t ∈ ts, t.isFound = false) → ts = (ts.flatMap Token.text).map kept
  | [], _ => rfl
  | .kept c :: ts, h => by
    have hts : ts = (ts.flatMap Token.text).map kept := eq_kept fun t ht => h t (List.mem_cons_of_mem _ ht)
    rw [List.flatMap_cons, Token.text, List.singleton_append, List.map_cons, ← hts]
  | .found w :: ts, h => absurd (h _ List.mem_cons_self) (by simp [isFound])

/-- A text is kept whole, or up to a found word. -/
theorem kept_or_found : ∀ ts : List (Token α),
    (∃ x : List α, ts = x.map .kept) ∨ ∃ (x w : List α) (r : List (Token α)), ts = x.map .kept ++ .found w :: r
  | [] => .inl ⟨[], rfl⟩
  | .kept c :: ts => by
    rcases kept_or_found ts with ⟨x, hx⟩ | ⟨x, w, r, hx⟩
    · exact .inl ⟨c :: x, by rw [hx]; rfl⟩
    · exact .inr ⟨c :: x, w, r, by rw [hx]; rfl⟩
  | .found w :: ts => .inr ⟨[], w, ts, rfl⟩

/-- What a text ends with, where every replacement ends with such. -/
theorem last_write {f : List α → List α} {p : α → Prop} {ts : List (Token α)}
    (hf : ∀ w, .found w ∈ ts → ∃ c, (f w).getLast? = some c ∧ p c) (h : ∀ c ∈ (ts.flatMap Token.text).getLast?, p c) :
    ∀ c ∈ (ts.flatMap (Token.write f)).getLast?, p c := by
  rcases List.eq_nil_or_concat ts with rfl | ⟨ts', t, rfl⟩
  · exact h
  · rw [List.concat_eq_append, List.flatMap_append, List.flatMap_singleton, List.getLast?_append] at h ⊢
    cases t with
    | kept c => exact h
    | found w =>
      obtain ⟨c, hc, hp⟩ := hf w (by simp)
      rw [Token.write, hc]
      rintro d ⟨⟩
      exact hp

/-! ## Reading -/

/-- The matcher that sees of each letter what `g` shows. -/
def reading (g : β → α) (m : Option α → List α → Option Nat) (prev : Option β) (l : List β) : Option Nat :=
  m (prev.map g) (l.map g)

theorem sound_reading (g : β → α) (hm : Sound m) : Sound (reading g m) := by
  intro prev l n h
  obtain ⟨hpos, hle⟩ := hm _ _ n h
  exact ⟨hpos, by rwa [List.length_map] at hle⟩

theorem tokens_reading (g : β → α) (m : Option α → List α → Option Nat) : ∀ (l : List β) (prev : Option β) (n : Nat),
    (tokens (reading g m) prev n l).map (Token.map g) = tokens m (prev.map g) n (l.map g)
  | [], prev, n => by cases n <;> rfl
  | c :: l, prev, n + 1 => tokens_reading g m l (some c) n
  | c :: l, prev, 0 => by
    have hm : reading g m prev (c :: l) = m (prev.map g) (g c :: l.map g) := rfl
    rw [tokens, List.map_cons, tokens, hm]
    cases m (prev.map g) (g c :: l.map g) with
    | none =>
      simp only [List.map_cons]
      rw [tokens_reading g m l (some c) 0]
      rfl
    | some k =>
      cases k with
      | zero =>
        simp only [List.map_cons]
        rw [tokens_reading g m l (some c) 0]
        rfl
      | succ k =>
        simp only [List.map_cons]
        rw [tokens_reading g m l (some c) k, Token.map, List.map_take]
        rfl

/-- **A substitution on what is read is one on what is seen.** -/
theorem rewrite_reading {g : β → α} {f : List α → List α} {f' : List β → List β}
    (hf : ∀ w, (f' w).map g = f (w.map g)) (l : List β) :
    (rewrite (reading g m) f' l).map g = rewrite m f (l.map g) := by
  have htokens := tokens_reading g m l none 0
  rw [Option.map_none] at htokens
  unfold rewrite
  rw [← htokens, List.map_flatMap, List.flatMap_map]
  congr 1
  funext t
  cases t with
  | kept c => rfl
  | found w => exact hf w

/-! ## Patterns -/

/-- A regular expression, perhaps behind `\b`. -/
structure Pattern (α : Type) where
  bounded : Bool
  body : Regex α

/-- A place between a word character and none. -/
def atBoundary (word : α → Bool) (prev : Option α) (l : List α) : Bool := prev.any word != l.head?.any word

namespace Pattern

variable {word : α → Bool} {P : Pattern α} {prev : Option α} {c : α} {l w x y : List α}

/-- The pattern matches the text behind `prev`. -/
def Starts (word : α → Bool) (P : Pattern α) (prev : Option α) (w : List α) : Prop :=
  P.body.Lang w ∧ (P.bounded = true → atBoundary word prev w = true)

/-- The length of the match at the start. -/
def matchAt (word : α → Bool) (P : Pattern α) (prev : Option α) (l : List α) : Option Nat :=
  if P.bounded && !atBoundary word prev l then none else (P.body.rests l).head?.map fun r => l.length - r.length

/-- `re.search` finds something. -/
def search (word : α → Bool) (P : Pattern α) (l : List α) : Bool :=
  (tokens (P.matchAt word) none 0 l).any Token.isFound

/-- No match begins anywhere. -/
def Free (word : α → Bool) (P : Pattern α) (prev : Option α) (l : List α) : Prop :=
  ∀ a w b, l = a ++ w ++ b → ¬ P.Starts word (a.getLast?.or prev) w

theorem Starts.ne_nil (hP : 0 < P.body.minLength) (h : P.Starts word prev w) : w ≠ [] := by
  rintro rfl
  exact absurd h.1.minLength_le (Nat.not_le_of_lt hP)

theorem atBoundary_append (word : α → Bool) (prev : Option α) (hw : w ≠ []) (l : List α) :
    atBoundary word prev (w ++ l) = atBoundary word prev w := by
  obtain ⟨c, w, rfl⟩ := List.exists_cons_of_ne_nil hw
  rfl

theorem starts_congr {prev' : Option α} (h : prev.any word = prev'.any word) :
    P.Starts word prev w ↔ P.Starts word prev' w := by
  unfold Starts atBoundary
  rw [h]

theorem matchAt_eq_none_iff (hP : 0 < P.body.minLength) :
    P.matchAt word prev l = none ↔ ∀ w r, l = w ++ r → ¬ P.Starts word prev w := by
  unfold matchAt
  constructor
  · rintro h w r rfl hs
    have hbound : (P.bounded && !atBoundary word prev (w ++ r)) = false := by
      rw [atBoundary_append word prev (hs.ne_nil hP) r]
      cases hb : P.bounded with
      | false => rfl
      | true => rw [hs.2 hb]; rfl
    rw [hbound, if_neg Bool.false_ne_true, Option.map_eq_none_iff, List.head?_eq_none_iff] at h
    have hmem : r ∈ P.body.rests (w ++ r) := Regex.mem_rests.2 ⟨w, rfl, hs.1⟩
    rw [h] at hmem
    exact List.not_mem_nil hmem
  · intro h
    split
    · rfl
    · rename_i hbound
      rw [Option.map_eq_none_iff, List.head?_eq_none_iff, List.eq_nil_iff_forall_not_mem]
      intro r hr
      obtain ⟨w, rfl, hw⟩ := Regex.mem_rests.1 hr
      refine h w r rfl ⟨hw, fun hb => ?_⟩
      have hne : w ≠ [] := by
        rintro rfl
        exact absurd hw.minLength_le (Nat.not_le_of_lt hP)
      rw [hb, Bool.true_and, Bool.not_eq_true', Bool.not_eq_false, atBoundary_append word prev hne] at hbound
      exact hbound

/-- The match the scan takes: one of the pattern's, and what the matcher leaves behind it. -/
theorem matchAt_eq_some (hP : 0 < P.body.minLength) {n : Nat} (h : P.matchAt word prev l = some n) :
    ∃ w r, l = w ++ r ∧ n = w.length ∧ P.Starts word prev w ∧ (P.body.rests l).head? = some r := by
  unfold matchAt at h
  split at h
  · cases h
  · rename_i hbound
    obtain ⟨r, hr, rfl⟩ := Option.map_eq_some_iff.1 h
    obtain ⟨w, rfl, hw⟩ := Regex.mem_rests.1 (List.mem_of_head? hr)
    have hne : w ≠ [] := by
      rintro rfl
      exact absurd hw.minLength_le (Nat.not_le_of_lt hP)
    refine ⟨w, r, rfl, by simp, ⟨hw, fun hb => ?_⟩, hr⟩
    rw [hb, Bool.true_and, Bool.not_eq_true', Bool.not_eq_false, atBoundary_append word prev hne] at hbound
    exact hbound

theorem matchAt_append (hP : 0 < P.body.minLength) (h : P.matchAt word prev (w ++ l) = some w.length) :
    P.Starts word prev w ∧ (P.body.rests (w ++ l)).head? = some l := by
  obtain ⟨w', r, heq, hlength, hs, hr⟩ := matchAt_eq_some hP h
  obtain ⟨rfl, rfl⟩ := List.append_inj heq hlength
  exact ⟨hs, hr⟩

theorem sound_matchAt (hP : 0 < P.body.minLength) : Sound (P.matchAt word) := by
  intro prev l n h
  obtain ⟨w, r, rfl, rfl, hs, -⟩ := matchAt_eq_some hP h
  exact ⟨List.length_pos_iff.2 (hs.ne_nil hP), by simp⟩

theorem scanned (hP : 0 < P.body.minLength) (word : α → Bool) (l : List α) :
    Scanned (P.matchAt word) none l (tokens (P.matchAt word) none 0 l) :=
  scanned_tokens (sound_matchAt hP) l.length none l (Nat.le_refl _)

/-! ## Texts without a match -/

theorem free_nil (hP : 0 < P.body.minLength) : P.Free word prev [] := by
  intro a w b h hs
  have hw := (List.append_eq_nil_iff.1 (List.append_eq_nil_iff.1 h.symm).1).2
  exact hs.ne_nil hP hw

theorem free_cons :
    P.Free word prev (c :: l) ↔ (∀ w r, c :: l = w ++ r → ¬ P.Starts word prev w) ∧ P.Free word (some c) l := by
  constructor
  · intro h
    refine ⟨fun w r hw => h [] w r hw, fun a w b hl hs => ?_⟩
    refine h (c :: a) w b (by rw [hl]; rfl) ?_
    rw [List.getLast?_cons, Option.some_or]
    cases ha : a.getLast? with
    | none => rw [ha] at hs; exact hs
    | some d => rw [ha] at hs; exact hs
  · rintro ⟨hstart, hrest⟩ a w b hl hs
    cases a with
    | nil => exact hstart w b hl hs
    | cons d a =>
      obtain ⟨rfl, htail⟩ := List.cons.inj hl
      refine hrest a w b htail ?_
      rw [List.getLast?_cons, Option.some_or] at hs
      cases ha : a.getLast? with
      | none => rw [ha] at hs; exact hs
      | some d => rw [ha] at hs; exact hs

theorem Free.left (h : P.Free word prev (x ++ y)) : P.Free word prev x := by
  rintro a w b rfl
  exact h a w (b ++ y) (by simp)

theorem Free.right (h : P.Free word prev (x ++ y)) : P.Free word (x.getLast?.or prev) y := by
  rintro a w b rfl hs
  refine h (x ++ a) w b (by simp) ?_
  rw [List.getLast?_append, Option.or_assoc]
  exact hs

theorem Free.congr {prev' : Option α} (h : P.Free word prev l) (hprev : prev.any word = prev'.any word) :
    P.Free word prev' l := by
  intro a w b hl hs
  cases ha : a.getLast? with
  | none =>
    refine h a w b hl ?_
    rw [ha, Option.none_or] at hs ⊢
    exact (starts_congr hprev).2 hs
  | some d =>
    refine h a w b hl ?_
    rw [ha, Option.some_or] at hs ⊢
    exact hs

/-- A match that lacks a character lies before it. -/
theorem prefix_of_not_mem {w r : List α} : ∀ {x y : List α} {c : α}, x ++ c :: y = w ++ r → c ∉ w → ∃ r', x = w ++ r'
  | x, y, c, h, hc => by
    rcases List.append_eq_append_iff.1 h with ⟨a', rfl, hr⟩ | ⟨c', hx, -⟩
    · cases a' with
      | nil => exact ⟨[], by simp⟩
      | cons d a' =>
        obtain ⟨rfl, -⟩ := List.cons.inj hr
        exact absurd (by simp) hc
    · exact ⟨c', hx⟩

/-- **A text cut at a character that no match has and no word either** is free where its parts are. -/
theorem free_cut (hP : 0 < P.body.minLength) (hc : P.body.avoids c = true) (hword : word c = false)
    (hy : P.Free word none y) : ∀ {x : List α} {prev : Option α}, P.Free word prev x → P.Free word prev (x ++ c :: y)
  | [], prev, _ => by
    refine free_cons.2 ⟨fun w r hw hs => ?_, hy.congr (by simp [hword])⟩
    obtain ⟨d, w, rfl⟩ := List.exists_cons_of_ne_nil (hs.ne_nil hP)
    obtain ⟨rfl, -⟩ := List.cons.inj hw
    exact hs.1.not_mem hc List.mem_cons_self
  | d :: x, prev, hx => by
    obtain ⟨hstart, hrest⟩ := free_cons.1 hx
    refine free_cons.2 ⟨fun w r hw hs => ?_, free_cut hP hc hword hy hrest⟩
    obtain ⟨r', hr'⟩ := prefix_of_not_mem (x := d :: x) hw (hs.1.not_mem hc)
    exact hstart w r' hr' hs

/-- A character that ends no match makes none. -/
theorem free_concat (hP : 0 < P.body.minLength) (hc : P.body.last c = false) (hx : P.Free word prev x) :
    P.Free word prev (x ++ [c]) := by
  intro a w b hl hs
  rcases List.eq_nil_or_concat b with rfl | ⟨b', d, rfl⟩
  · rw [List.append_nil] at hl
    obtain ⟨w', d, rfl⟩ := (List.eq_nil_or_concat w).resolve_left (hs.ne_nil hP)
    rw [List.concat_eq_append, ← List.append_assoc] at hl
    obtain ⟨-, hd⟩ := List.append_inj' hl rfl
    cases hd
    have hlast := hs.1.last (c := c) (by simp)
    rw [hc] at hlast
    cases hlast
  · rw [List.concat_eq_append, ← List.append_assoc] at hl
    exact hx a w b' (List.append_inj' hl rfl).1 hs

/-- A text too short for any match. -/
theorem free_of_length (h : l.length < P.body.minLength) : P.Free word prev l := by
  rintro a w b rfl hs
  have := hs.1.minLength_le
  simp only [List.length_append] at h
  omega

/-! ## Searching -/

/-- What a scan finds are matches. -/
theorem lang_of_found (hP : 0 < P.body.minLength) {ts : List (Token α)} (hscan : Scanned (P.matchAt word) prev l ts) :
    ∀ w, .found w ∈ ts → P.body.Lang w := by
  induction hscan with
  | nil => exact fun w hw => absurd hw List.not_mem_nil
  | kept hm h ih =>
    rintro w (_ | ⟨_, hw⟩)
    exact ih w hw
  | found hw hm h ih =>
    rintro w (_ | ⟨_, hmem⟩)
    · exact (matchAt_append hP hm).1.1
    · exact ih w hmem

theorem kept_of_free (hP : 0 < P.body.minLength) {ts : List (Token α)} (hscan : Scanned (P.matchAt word) prev l ts)
    (hfree : P.Free word prev l) : ∀ t ∈ ts, t.isFound = false := by
  induction hscan with
  | nil => exact fun t ht => absurd ht List.not_mem_nil
  | kept hm h ih =>
    rintro t (_ | ⟨_, ht⟩)
    · rfl
    · exact ih (free_cons.1 hfree).2 t ht
  | @found prev w l ts hw hm h ih => exact absurd (matchAt_append hP hm).1 (hfree [] w l rfl)

theorem free_of_kept (hP : 0 < P.body.minLength) {ts : List (Token α)} (hscan : Scanned (P.matchAt word) prev l ts)
    (hts : ∀ t ∈ ts, t.isFound = false) : P.Free word prev l := by
  induction hscan with
  | nil => exact free_nil hP
  | kept hm h ih =>
    refine free_cons.2 ⟨(matchAt_eq_none_iff hP).1 hm, ih fun t ht => hts t (List.mem_cons_of_mem _ ht)⟩
  | found hw hm h ih => exact absurd (hts _ List.mem_cons_self) (by simp [Token.isFound])

theorem search_eq_false_iff (hP : 0 < P.body.minLength) : P.search word l = false ↔ P.Free word none l := by
  have hscan := scanned hP word l
  unfold search
  rw [List.any_eq_false]
  constructor
  · exact fun h => free_of_kept hP hscan fun t ht => Bool.eq_false_iff.2 (h t ht)
  · exact fun h t ht => by rw [kept_of_free hP hscan h t ht]; exact Bool.false_ne_true

/-- **A text without a match is left as it is.** -/
theorem rewrite_of_free (hP : 0 < P.body.minLength) (f : List α → List α) (h : P.Free word none l) :
    rewrite (P.matchAt word) f l = l := by
  have hscan := scanned hP word l
  unfold rewrite
  rw [write_of_kept (kept_of_free hP hscan h), hscan.text]

/-! ## Seams

A replacement that begins with a label puts the label behind the text kept before the match; the rest of it closes the
text off.  `stem` is what so comes together first, `others` what comes together behind the later words. -/

section Seams

variable {Q : Pattern α} {label f : List α → List α}

def stem (label : List α → List α) : List (Token α) → List α
  | [] => []
  | .kept c :: ts => c :: stem label ts
  | .found w :: _ => label w

def others (label : List α → List α) : List (Token α) → List (List α)
  | [] => []
  | .kept _ :: ts => others label ts
  | .found _ :: ts => stem label ts :: others label ts

/-- What follows a label keeps what is before it and what is behind it apart. -/
def Seals (word : α → Bool) (Q : Pattern α) (label f : List α → List α) (w : List α) : Prop :=
  ∀ x y prev, Q.Free word prev (x ++ label w) → Q.Free word none y → Q.Free word prev (x ++ (f w ++ y))

/-- **A pattern free in every seam is free in what a substitution writes.** -/
theorem free_write : ∀ {ts : List (Token α)} {k : List α} {prev : Option α},
    (∀ w, .found w ∈ ts → Seals word Q label f w) → Q.Free word prev (k ++ stem label ts) →
      (∀ s ∈ others label ts, Q.Free word none s) → Q.Free word prev (k ++ ts.flatMap (Token.write f))
  | [], _, _, _, hstem, _ => hstem
  | .kept c :: ts, k, prev, hseal, hstem, hothers => by
    have hsplit : ∀ l, k ++ c :: l = (k ++ [c]) ++ l := fun l => by simp
    rw [stem, hsplit] at hstem
    have h := free_write (fun w hw => hseal w (List.mem_cons_of_mem _ hw)) hstem hothers
    rw [← hsplit] at h
    exact h
  | .found w :: ts, k, prev, hseal, hstem, hothers => by
    have hrest : Q.Free word none ([] ++ ts.flatMap (Token.write f)) :=
      free_write (fun w hw => hseal w (List.mem_cons_of_mem _ hw)) (hothers _ List.mem_cons_self)
        fun s hs => hothers s (List.mem_cons_of_mem _ hs)
    exact hseal w List.mem_cons_self k _ prev hstem hrest

variable {γ : Type} {φ : α → γ} {cls : α → Bool} {ts : List (Token α)}

/-- The label is, to the eye of `φ`, what the found word begins with. -/
def Kept (φ : α → γ) (label : List α → List α) (w : List α) : Prop := ∃ y r, w = y ++ r ∧ y.map φ = (label w).map φ

/-- What begins a seam began the text. -/
theorem prefix_of_stem : ∀ {ts : List (Token α)} {x r : List α}, (∀ w, .found w ∈ ts → Kept φ label w) →
    stem label ts = x ++ r → ∃ y r', ts.flatMap Token.text = y ++ r' ∧ y.map φ = x.map φ
  | _, [], _, _, _ => ⟨[], _, rfl, rfl⟩
  | [], _ :: _, _, _, hx => by cases hx
  | .kept c :: ts, d :: x, r, hkept, hx => by
    obtain ⟨rfl, htail⟩ := List.cons.inj hx
    obtain ⟨y, r', hy, hmap⟩ := prefix_of_stem (fun w hw => hkept w (List.mem_cons_of_mem _ hw)) htail
    exact ⟨c :: y, r', by rw [List.flatMap_cons, hy]; rfl, by rw [List.map_cons, List.map_cons, hmap]⟩
  | .found w :: ts, d :: x, r, hkept, hx => by
    obtain ⟨y, r', hw, hmap⟩ := hkept w List.mem_cons_self
    rw [show stem label (.found w :: ts) = label w from rfl] at hx
    rw [hx, List.map_append] at hmap
    obtain ⟨y₁, y₂, rfl, hy₁, -⟩ := List.map_eq_append_iff.1 hmap
    refine ⟨y₁, y₂ ++ r' ++ ts.flatMap Token.text, ?_, hy₁⟩
    rw [List.flatMap_cons, show (Token.found w).text = w from rfl]
    nth_rewrite 1 [hw]
    simp only [List.append_assoc]

/-- **A greedy pattern's substitution makes no match of `Q`** where `Q` has none, or is the pattern itself: a match in a
seam is one in the text, and none begins in a label or right behind a found word. -/
theorem seams_free {P : Pattern α} (hP : 0 < P.body.minLength) (hgreedy : P.body.Greedy cls)
    (hQ : 0 < Q.body.minLength) (hfirst : ∀ c, Q.body.first c = true → cls c = true)
    (hφ : ∀ x y, x.map φ = y.map φ → Q.body.Lang x → Q.body.Lang y)
    (hscan : Scanned (P.matchAt word) prev l ts) (hfree : Q = P ∨ Q.Free word prev l)
    (hkept : ∀ w, .found w ∈ ts → Kept φ label w)
    (hlabel : ∀ w, .found w ∈ ts → ∀ a x b, label w = a ++ x ++ b → ¬ Q.body.Lang x) :
    Q.Free word prev (stem label ts) ∧ (Regex.Sated cls l → Q.Free word none (stem label ts)) ∧
      ∀ s ∈ others label ts, Q.Free word none s := by
  induction hscan with
  | nil => exact ⟨free_nil hQ, fun _ => free_nil hQ, fun s hs => absurd hs List.not_mem_nil⟩
  | @kept prev c l ts hm h ih =>
    have hrest : Q = P ∨ Q.Free word (some c) l := hfree.imp_right fun hf => (free_cons.1 hf).2
    have hnone : ∀ w r, c :: l = w ++ r → ¬ Q.Starts word prev w := by
      rcases hfree with rfl | hf
      · exact (matchAt_eq_none_iff hP).1 hm
      · exact (free_cons.1 hf).1
    obtain ⟨hstem, -, hothers⟩ := ih hrest (fun w hw => hkept w (List.mem_cons_of_mem _ hw))
      fun w hw => hlabel w (List.mem_cons_of_mem _ hw)
    refine ⟨free_cons.2 ⟨fun w r hw hs => ?_, hstem⟩, fun hsated => free_cons.2 ⟨fun w r hw hs => ?_, hstem⟩, hothers⟩
    · obtain ⟨d, x, rfl⟩ := List.exists_cons_of_ne_nil (hs.ne_nil hQ)
      obtain ⟨rfl, hx⟩ := List.cons.inj hw
      obtain ⟨y, r', hy, hmap⟩ := prefix_of_stem (fun w hw => hkept w (List.mem_cons_of_mem _ hw)) hx
      rw [h.text] at hy
      refine hnone (c :: y) r' (by rw [hy]; rfl) ⟨hφ (c :: x) (c :: y) ?_ hs.1, hs.2⟩
      rw [List.map_cons, List.map_cons, hmap]
    · obtain ⟨d, x, rfl⟩ := List.exists_cons_of_ne_nil (hs.ne_nil hQ)
      obtain ⟨rfl, -⟩ := List.cons.inj hw
      have hc := hfirst c hs.1.first
      rw [hsated c l rfl] at hc
      cases hc
  | @found prev w l ts hw hm h ih =>
    have hin : ∀ p, Q.Free word p (label w) := fun p a x b hx hs => hlabel w List.mem_cons_self a x b hx hs.1
    have hsated : Regex.Sated cls l := hgreedy _ _ (matchAt_append hP hm).2
    have hrest : Q = P ∨ Q.Free word w.getLast? l := by
      refine hfree.imp_right fun hf => ?_
      have hlast := hf.right
      obtain ⟨d, hd⟩ := List.getLast?_isSome.2 hw |> Option.isSome_iff_exists.1
      rw [hd, Option.some_or] at hlast
      rw [hd]
      exact hlast
    obtain ⟨-, hstem, hothers⟩ := ih hrest (fun w hw => hkept w (List.mem_cons_of_mem _ hw))
      fun w hw => hlabel w (List.mem_cons_of_mem _ hw)
    refine ⟨hin prev, fun _ => hin none, ?_⟩
    rintro s (_ | ⟨_, hs⟩)
    · exact hstem hsated
    · exact hothers s hs

end Seams

end Pattern
end Lib
