import Mathlib.Data.List.Forall2
import SafeSend.Redaction.Passes
/-!
# Redacting piece by piece

A line that is put together from a message's own text, strings, and what is left alone, where the message and the strings
are redacted each on its own.  Where every pass over the line finds just what it finds in them one by one, what comes of
it is the line redacted whole.
-/
namespace SafeSend
namespace Redaction

open Lib

/-! ## Pieces -/

/-- What a line is put together from: the message's own text, a string shown as it is, and what the filter leaves alone.
`source` is how the piece stands in the message. -/
inductive Piece
  | own (s : List Char)
  | string (source s : List Char)
  | fixed (source shown : List Char)
  deriving DecidableEq

namespace Piece

def source : Piece → List Char
  | own s => s
  | string source _ => source
  | fixed source _ => source

def shown : Piece → List Char
  | own s => s
  | string _ s => s
  | fixed _ t => t

end Piece

def sourceOf (xs : List Piece) : List Char := xs.flatMap Piece.source

def lineOf (xs : List Piece) : List Char := xs.flatMap Piece.shown

/-- Over the pieces, each behind the last character of the message before it. -/
def along {β : Type} (f : Option Char → Piece → List β) : Option Char → List Piece → List β
  | _, [] => []
  | prev, x :: xs => f prev x ++ along f (x.source.getLast?.or prev) xs

variable {beyond : Char → Bool} {printable : Char → Bool} {p : Credential}

/-! ## A pass, piece by piece -/

section
variable (beyond)

namespace Credential

/-- What the pass finds in a text that goes on from what stands before it. -/
def within (p : Credential) (prev : Option Char) (s : List Char) : List (Token Char) :=
  Lib.tokens (p.pattern.matchAt (isWord beyond)) prev 0 s

def inSource (p : Credential) (prev : Option Char) : Piece → List (Token Char)
  | .own s => p.within beyond prev s
  | .string source _ => source.map .kept
  | .fixed source _ => source.map .kept

def inLine (p : Credential) (prev : Option Char) : Piece → List (Token Char)
  | .own s => p.within beyond prev s
  | .string _ s => p.tokens beyond s
  | .fixed _ t => t.map .kept

def pass (p : Credential) (prev : Option Char) : Piece → Piece
  | .own s => .own ((p.within beyond prev s).flatMap (Token.write replacement))
  | .string source s => .string source (p.sub beyond s)
  | .fixed source t => .fixed source t

/-- Over the message and over the line, the pass finds what it finds in the pieces. -/
def Within (p : Credential) (xs : List Piece) : Prop :=
  p.tokens beyond (sourceOf xs) = along (p.inSource beyond) none xs ∧
    p.tokens beyond (lineOf xs) = along (p.inLine beyond) none xs

instance (p : Credential) (xs : List Piece) : Decidable (p.Within beyond xs) := inferInstanceAs (Decidable (_ ∧ _))

def passed (p : Credential) (xs : List Piece) : List Piece := along (fun prev x => [p.pass beyond prev x]) none xs

end Credential

/-- Every pass finds what it finds in the pieces. -/
def AllWithin : List Credential → List Piece → Prop
  | [], _ => True
  | p :: ps, xs => p.Within beyond xs ∧ AllWithin ps (p.passed beyond xs)

instance decidableAllWithin : ∀ (ps : List Credential) (xs : List Piece), Decidable (AllWithin beyond ps xs)
  | [], _ => isTrue trivial
  | p :: ps, xs =>
    have := decidableAllWithin ps (p.passed beyond xs)
    inferInstanceAs (Decidable (_ ∧ _))

end

theorem along_flatMap {β γ : Type} {f : Option Char → Piece → List β} {g : β → List γ} :
    ∀ (xs : List Piece) (prev : Option Char),
      (along f prev xs).flatMap g = along (fun prev x => (f prev x).flatMap g) prev xs
  | [], _ => rfl
  | x :: xs, prev => by rw [along, along, List.flatMap_append, along_flatMap xs]

theorem along_congr {β : Type} {f g : Option Char → Piece → List β} (h : ∀ prev x, f prev x = g prev x) (xs : List Piece)
    (prev : Option Char) : along f prev xs = along g prev xs := by
  rw [funext fun prev => funext (h prev)]

theorem source_passed (p : Credential) (xs : List Piece) :
    sourceOf (p.passed beyond xs) = (along (p.inSource beyond) none xs).flatMap (Token.write replacement) := by
  rw [sourceOf, Credential.passed, along_flatMap, along_flatMap]
  refine along_congr (fun prev x => ?_) xs none
  cases x with
  | own s => simp [Credential.pass, Credential.inSource, Piece.source]
  | string source s => simp [Credential.pass, Credential.inSource, Piece.source, write_kept]
  | fixed source t => simp [Credential.pass, Credential.inSource, Piece.source, write_kept]

theorem line_passed (p : Credential) (xs : List Piece) :
    lineOf (p.passed beyond xs) = (along (p.inLine beyond) none xs).flatMap (Token.write replacement) := by
  rw [lineOf, Credential.passed, along_flatMap, along_flatMap]
  refine along_congr (fun prev x => ?_) xs none
  cases x with
  | own s => simp [Credential.pass, Credential.inLine, Piece.shown]
  | string source s => simp [Credential.pass, Credential.inLine, Piece.shown, Credential.sub, rewrite, Credential.tokens]
  | fixed source t => simp [Credential.pass, Credential.inLine, Piece.shown, write_kept]

/-- **Where all the passes find what they find in the pieces, the message and the line are redacted whole.** -/
theorem passes_whole : ∀ {ps : List Credential} {xs : List Piece}, AllWithin beyond ps xs →
    sourceOf (ps.foldl (fun xs p => p.passed beyond xs) xs) = ps.foldl (fun t p => p.sub beyond t) (sourceOf xs) ∧
      lineOf (ps.foldl (fun xs p => p.passed beyond xs) xs) = ps.foldl (fun t p => p.sub beyond t) (lineOf xs)
  | [], _, _ => ⟨rfl, rfl⟩
  | p :: ps, xs, h => by
    obtain ⟨⟨hsource, hline⟩, hrest⟩ := h
    have hone : sourceOf (p.passed beyond xs) = p.sub beyond (sourceOf xs) ∧
        lineOf (p.passed beyond xs) = p.sub beyond (lineOf xs) := by
      rw [source_passed, line_passed, ← hsource, ← hline]
      exact ⟨rfl, rfl⟩
    obtain ⟨hs, hl⟩ := passes_whole hrest
    rw [List.foldl_cons, List.foldl_cons, List.foldl_cons]
    rw [← hone.1, ← hone.2]
    exact ⟨hs, hl⟩

/-! ## What a piece becomes -/

/-- One is empty, or ends with a newline, exactly where the other is, or does. -/
def Closing (s s' : List Char) : Prop := (s = [] ↔ s' = []) ∧ (s.getLast? = some '\n' ↔ s'.getLast? = some '\n')

theorem Closing.refl (s : List Char) : Closing s s := ⟨.rfl, .rfl⟩

theorem Closing.trans {s s' s'' : List Char} (h : Closing s s') (h' : Closing s' s'') : Closing s s'' :=
  ⟨h.1.trans h'.1, h.2.trans h'.2⟩

theorem Closing.append {s s' t t' : List Char} (h : Closing s s') (h' : Closing t t') : Closing (s ++ t) (s' ++ t') := by
  refine ⟨by rw [List.append_eq_nil_iff, List.append_eq_nil_iff, h.1, h'.1], ?_⟩
  by_cases ht : t = []
  · rw [ht, h'.1.1 ht, List.append_nil, List.append_nil]
    exact h.2
  · have hc := List.getLast?_eq_some_getLast ht
    have hc' := List.getLast?_eq_some_getLast fun h => ht (h'.1.2 h)
    rw [List.getLast?_append, List.getLast?_append, hc, hc', Option.some_or, Option.some_or, ← hc, ← hc']
    exact h'.2

theorem last_replacement (w : List Char) : (replacement w).getLast? = some '»' := by
  have hlast : REDACTED.getLast? = some '»' := by decide
  rcases replacement_eq w with h | h
  · rw [h, List.getLast?_append, hlast, Option.some_or]
  · rw [h, List.getLast?_append, List.getLast?_cons, hlast]
    rfl

theorem closing_found (hp : p ∈ TOKEN_PATTERNS) {w : List Char} (hw : p.body.Lang w) : Closing w (replacement w) := by
  have hall : ∀ p ∈ TOKEN_PATTERNS, p.body.last '\n' = false := by decide
  have hne : w ≠ [] := List.length_pos_iff.1 (Nat.lt_of_lt_of_le (pos_of_pattern hp) hw.minLength_le)
  have hlast := last_replacement w
  refine ⟨iff_of_false hne fun h => ?_, iff_of_false (fun h => ?_) fun h => ?_⟩
  · rw [h] at hlast
    cases hlast
  · have hbad := hw.last h
    rw [hall p hp] at hbad
    cases hbad
  · rw [hlast] at h
    cases h

theorem closing_write (hp : p ∈ TOKEN_PATTERNS) : ∀ {ts : List (Token Char)}, (∀ w, .found w ∈ ts → p.body.Lang w) →
    Closing (ts.flatMap Token.text) (ts.flatMap (Token.write replacement))
  | [], _ => Closing.refl []
  | .kept c :: _, h => (Closing.refl [c]).append (closing_write hp fun w hw => h w (List.mem_cons_of_mem _ hw))
  | .found w :: _, h => (closing_found hp (h w List.mem_cons_self)).append
      (closing_write hp fun w hw => h w (List.mem_cons_of_mem _ hw))

theorem closing_within (hp : p ∈ TOKEN_PATTERNS) (beyond : Char → Bool) (prev : Option Char) (s : List Char) :
    Closing s ((p.within beyond prev s).flatMap (Token.write replacement)) := by
  have hscan := scanned_from hp beyond prev s
  have h := closing_write hp fun w => Pattern.lang_of_found (P := p.pattern) (pos_of_pattern hp) hscan w
  rwa [hscan.text] at h

theorem closing_passes : ∀ {ps : List Credential}, (∀ p ∈ ps, p ∈ TOKEN_PATTERNS) → ∀ s : List Char,
    Closing s (ps.foldl (fun t p => p.sub beyond t) s)
  | [], _, s => Closing.refl s
  | p :: ps, hps, s => by
    have hone : Closing s (p.sub beyond s) := closing_within (hps p List.mem_cons_self) beyond none s
    exact hone.trans (closing_passes (fun q hq => hps q (List.mem_cons_of_mem _ hq)) _)

theorem closing_redact (beyond : Char → Bool) (s : List Char) : Closing s (redact beyond s) :=
  closing_passes (fun _ h => h) s

/-- A directive is not made. -/
theorem unmarked_within (hp : p ∈ TOKEN_PATTERNS) (beyond : Char → Bool) {prev : Option Char} {s : List Char}
    (h : '%' ∉ s) : '%' ∉ (p.within beyond prev s).flatMap (Token.write replacement) := by
  have htext := (scanned_from hp beyond prev s).text
  intro hm
  obtain ⟨tok, htok, hm⟩ := List.mem_flatMap.1 hm
  have hsub : ∀ c ∈ tok.text, c ∈ s := fun c hc => by
    rw [← htext]
    exact List.mem_flatMap.2 ⟨tok, htok, hc⟩
  cases tok with
  | kept c => exact h (hsub '%' hm)
  | found w => exact not_mem_replacement (by decide) (by decide) (fun hw => h (hsub '%' hw)) hm

/-- What may come of a piece where `g` is done to the strings. -/
inductive Becomes (g : List Char → List Char) : Piece → Piece → Prop
  | own {s s' : List Char} (hmark : '%' ∉ s → '%' ∉ s') (hclosing : Closing s s') : Becomes g (.own s) (.own s')
  | string (source s : List Char) : Becomes g (.string source s) (.string source (g s))
  | fixed (source t : List Char) : Becomes g (.fixed source t) (.fixed source t)

theorem becomes_pass (hp : p ∈ TOKEN_PATTERNS) (prev : Option Char) (x : Piece) :
    Becomes (p.sub beyond) x (p.pass beyond prev x) := by
  cases x with
  | own s => exact .own (unmarked_within hp beyond) (closing_within hp beyond prev s)
  | string source s => exact .string source s
  | fixed source t => exact .fixed source t

theorem Becomes.trans {g g' : List Char → List Char} {x y z : Piece} (h : Becomes g x y) (h' : Becomes g' y z) :
    Becomes (fun s => g' (g s)) x z := by
  cases h with
  | own hmark hclosing =>
    cases h' with
    | own hmark' hclosing' => exact .own (fun h => hmark' (hmark h)) (hclosing.trans hclosing')
  | string source s =>
    cases h' with
    | string => exact .string source s
  | fixed source t =>
    cases h' with
    | fixed => exact .fixed source t

theorem Becomes.closing {g : List Char → List Char} (hg : ∀ s, Closing s (g s)) {x y : Piece} (h : Becomes g x y) :
    Closing x.shown y.shown := by
  cases h with
  | own _ hclosing => exact hclosing
  | string source s => exact hg s
  | fixed source t => exact Closing.refl t

theorem Becomes.source_nil {g : List Char → List Char} {x y : Piece} (h : Becomes g x y) (hx : x.source = []) :
    y.source = [] := by
  cases h with
  | own _ hclosing => exact hclosing.1.1 hx
  | string source s => exact hx
  | fixed source t => exact hx

theorem forall₂_along {R : Piece → Piece → Prop} {f : Option Char → Piece → Piece} (h : ∀ prev x, R x (f prev x)) :
    ∀ (xs : List Piece) (prev : Option Char), List.Forall₂ R xs (along (fun prev x => [f prev x]) prev xs)
  | [], _ => .nil
  | x :: xs, prev => .cons (h prev x) (forall₂_along h xs _)

theorem forall₂_trans {R S T : Piece → Piece → Prop} (h : ∀ x y z, R x y → S y z → T x z) :
    ∀ {xs ys zs : List Piece}, List.Forall₂ R xs ys → List.Forall₂ S ys zs → List.Forall₂ T xs zs
  | _, _, _, .nil, .nil => .nil
  | _, _, _, .cons hxy hr, .cons hyz hs => .cons (h _ _ _ hxy hyz) (forall₂_trans h hr hs)

theorem becomes_passes : ∀ {ps : List Credential}, (∀ p ∈ ps, p ∈ TOKEN_PATTERNS) → ∀ xs : List Piece,
    List.Forall₂ (Becomes fun s => ps.foldl (fun t p => p.sub beyond t) s) xs
      (ps.foldl (fun xs p => p.passed beyond xs) xs)
  | [], _, xs => by
    refine List.forall₂_same.2 fun x _ => ?_
    cases x with
    | own s => exact .own id (Closing.refl s)
    | string source s => exact .string source s
    | fixed source t => exact .fixed source t
  | p :: ps, hps, xs => by
    have hone : List.Forall₂ (Becomes (p.sub beyond)) xs (p.passed beyond xs) :=
      forall₂_along (fun prev x => becomes_pass (hps p List.mem_cons_self) prev x) xs none
    have hrest := becomes_passes (fun q hq => hps q (List.mem_cons_of_mem _ hq)) (p.passed beyond xs)
    exact forall₂_trans (fun x y z hx hz => hx.trans hz) hone hrest

theorem closing_line {g : List Char → List Char} (hg : ∀ s, Closing s (g s)) {xs ys : List Piece}
    (h : List.Forall₂ (Becomes g) xs ys) : Closing (lineOf xs) (lineOf ys) := by
  induction h with
  | nil => exact Closing.refl []
  | cons hx _ ih => exact (hx.closing hg).append ih

/-! ## Nothing found -/

variable (beyond) in
/-- No pattern has a match in the message, nor in a string. -/
def Quiet (xs : List Piece) : Prop :=
  (∀ p ∈ TOKEN_PATTERNS, p.Free beyond (sourceOf xs)) ∧
    ∀ source s, .string source s ∈ xs → ∀ p ∈ TOKEN_PATTERNS, p.Free beyond s

/-- A pass that finds nothing leaves every piece as it is. -/
theorem along_free (hp : p ∈ TOKEN_PATTERNS) : ∀ {xs : List Piece} {prev : Option Char},
    p.pattern.Free (isWord beyond) prev (sourceOf xs) → (∀ source s, .string source s ∈ xs → p.Free beyond s) →
      along (p.inSource beyond) prev xs = (sourceOf xs).map .kept ∧
        along (p.inLine beyond) prev xs = (lineOf xs).map .kept ∧
        along (fun prev x => [p.pass beyond prev x]) prev xs = xs
  | [], _, _, _ => ⟨rfl, rfl, rfl⟩
  | x :: xs, prev, hfree, hstrings => by
    rw [sourceOf, List.flatMap_cons] at hfree
    obtain ⟨hsource, hline, hpass⟩ := along_free hp (Pattern.Free.right hfree) fun source s hs =>
      hstrings source s (List.mem_cons_of_mem _ hs)
    have hhead := Pattern.Free.left hfree
    have hx : p.inSource beyond prev x = x.source.map .kept ∧ p.inLine beyond prev x = x.shown.map .kept ∧
        p.pass beyond prev x = x := by
      cases x with
      | own s =>
        have hkept : p.within beyond prev s = s.map Token.kept := tokens_free hp hhead
        refine ⟨hkept, hkept, ?_⟩
        rw [Credential.pass, hkept, write_kept]
      | string source s =>
        have hkept : p.within beyond none s = s.map Token.kept := tokens_free hp (hstrings source s List.mem_cons_self)
        refine ⟨rfl, hkept, ?_⟩
        have hsub : p.sub beyond s = (p.within beyond none s).flatMap (Token.write replacement) := rfl
        rw [Credential.pass, hsub, hkept, write_kept]
      | fixed source t => exact ⟨rfl, rfl, rfl⟩
    have hcons : sourceOf (x :: xs) = x.source ++ sourceOf xs ∧ lineOf (x :: xs) = x.shown ++ lineOf xs := ⟨rfl, rfl⟩
    rw [along, along, along, hx.1, hx.2.1, hx.2.2, hsource, hline, hpass, hcons.1, hcons.2, List.map_append,
      List.map_append]
    exact ⟨rfl, rfl, rfl⟩

theorem allWithin_of_free {xs : List Piece} (hquiet : Quiet beyond xs)
    (hline : ∀ p ∈ TOKEN_PATTERNS, p.Free beyond (lineOf xs)) :
    ∀ {ps : List Credential}, (∀ p ∈ ps, p ∈ TOKEN_PATTERNS) → AllWithin beyond ps xs
  | [], _ => trivial
  | p :: ps, hps => by
    have hp := hps p List.mem_cons_self
    obtain ⟨hsource, hshown, hpass⟩ := along_free hp (hquiet.1 p hp) fun source s hs => hquiet.2 source s hs p hp
    have hpassed : p.passed beyond xs = xs := hpass
    refine ⟨⟨?_, ?_⟩, ?_⟩
    · rw [hsource]
      exact tokens_free hp (hquiet.1 p hp)
    · rw [hshown]
      exact tokens_free hp (hline p hp)
    · rw [hpassed]
      exact allWithin_of_free hquiet hline fun q hq => hps q (List.mem_cons_of_mem _ hq)

end Redaction
end SafeSend
