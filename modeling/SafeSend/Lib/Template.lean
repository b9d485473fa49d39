import Mathlib.Data.List.Basic
/-!
# Templates

A text with directives in it.  A directive opens with a mark and is read one character after another until the reader
has it, so it ends at its own last character, whatever follows.  A template is read from a text exactly where the text is
the template's and each of its directives reads as itself.
-/
namespace Lib

variable {α σ δ : Type}

inductive Step (σ δ : Type)
  | more (s : σ)
  | done (d : δ)
  | refused

/-- How directives are read: what opens one, where the reader is then, and what a character does. -/
structure Reader (α σ δ : Type) where
  mark : α
  start : σ
  step : σ → α → Step σ δ

/-- A directive as it is written, with the text up to the next one. -/
structure Hole (α δ : Type) where
  source : List α
  directive : δ
  after : List α

structure Template (α δ : Type) where
  head : List α
  holes : List (Hole α δ)

namespace Template

def text (T : Template α δ) : List α := T.head ++ T.holes.flatMap fun s => s.source ++ s.after

def cons (c : α) (T : Template α δ) : Template α δ := ⟨c :: T.head, T.holes⟩

/-- A directive in front. -/
def opened (source : List α) (d : δ) (T : Template α δ) : Template α δ := ⟨[], ⟨source, d, T.head⟩ :: T.holes⟩

@[simp] theorem text_cons (c : α) (T : Template α δ) : (T.cons c).text = c :: T.text := rfl

@[simp] theorem text_opened (source : List α) (d : δ) (T : Template α δ) :
    (T.opened source d).text = source ++ T.text := by
  simp [text, opened]

end Template

namespace Reader

variable (R : Reader α σ δ)

/-- The characters of a directive, to the last. -/
inductive Reads : σ → List α → δ → Prop
  | done {s : σ} {c : α} {d : δ} (h : R.step s c = .done d) : Reads s [c] d
  | more {s s' : σ} {c : α} {l : List α} {d : δ} (h : R.step s c = .more s') (hl : Reads s' l d) : Reads s (c :: l) d

/-- Outside the directives there is no mark, and each directive reads as itself. -/
structure Writes (T : Template α δ) : Prop where
  head : R.mark ∉ T.head
  holes : ∀ s ∈ T.holes, (∃ l, s.source = R.mark :: l ∧ R.Reads R.start l s.directive) ∧ R.mark ∉ s.after

section
variable [DecidableEq α]

/-- The reader is outside a directive, or in one with what it took of it. -/
def scan : Option (σ × List α) → List α → Option (Template α δ)
  | none, [] => some ⟨[], []⟩
  | some _, [] => none
  | none, c :: l => if c = R.mark then scan (some (R.start, [c])) l else (scan none l).map (Template.cons c)
  | some (s, taken), c :: l =>
    match R.step s c with
    | .more s' => scan (some (s', taken ++ [c])) l
    | .done d => (scan none l).map (Template.opened (taken ++ [c]) d)
    | .refused => none

def parse (t : List α) : Option (Template α δ) := R.scan none t

end

variable {R} {T : Template α δ}

theorem writes_cons {c : α} (hc : c ≠ R.mark) (h : R.Writes T) : R.Writes (T.cons c) :=
  ⟨fun hm => (List.mem_cons.1 hm).elim (fun h => hc h.symm) h.head, h.holes⟩

theorem writes_opened {l : List α} {d : δ} (hl : R.Reads R.start l d) (h : R.Writes T) :
    R.Writes (T.opened (R.mark :: l) d) := by
  refine ⟨List.not_mem_nil, ?_⟩
  rintro s (_ | ⟨_, hs⟩)
  · exact ⟨⟨l, rfl, hl⟩, h.head⟩
  · exact h.holes s hs

section
variable [DecidableEq α]

/-- What a scan gives has the text scanned; inside a directive it begins with that directive. -/
theorem scan_sound : ∀ l : List α, (∀ T, R.scan none l = some T → T.text = l ∧ R.Writes T) ∧
    ∀ s taken T, R.scan (some (s, taken)) l = some T →
      ∃ l₁ d T', T = Template.opened (taken ++ l₁) d T' ∧ R.Reads s l₁ d ∧ T.text = taken ++ l ∧ R.Writes T'
  | [] => by
    constructor
    · intro T h
      rw [scan, Option.some.injEq] at h
      subst h
      exact ⟨rfl, List.not_mem_nil, fun s hs => absurd hs List.not_mem_nil⟩
    · intro s taken T h
      cases h
  | c :: l => by
    obtain ⟨hout, hin⟩ := scan_sound l
    constructor
    · intro T h
      rw [scan] at h
      split at h
      · next hc =>
        obtain ⟨l₁, d, T', rfl, hreads, htext, hwrites⟩ := hin _ _ _ h
        subst hc
        exact ⟨htext, writes_opened hreads hwrites⟩
      · next hc =>
        obtain ⟨T', hscan, rfl⟩ := Option.map_eq_some_iff.1 h
        obtain ⟨htext, hwrites⟩ := hout _ hscan
        exact ⟨by rw [Template.text_cons, htext], writes_cons hc hwrites⟩
    · intro s taken T h
      rw [scan] at h
      split at h
      · next s' hstep =>
        obtain ⟨l₁, d, T', rfl, hreads, htext, hwrites⟩ := hin _ _ _ h
        refine ⟨c :: l₁, d, T', by rw [List.append_assoc]; rfl, .more hstep hreads, ?_, hwrites⟩
        rw [htext, List.append_assoc]
        rfl
      · next d hstep =>
        obtain ⟨T', hscan, rfl⟩ := Option.map_eq_some_iff.1 h
        obtain ⟨htext, hwrites⟩ := hout _ hscan
        refine ⟨[c], d, T', rfl, .done hstep, ?_, hwrites⟩
        rw [Template.text_opened, htext, List.append_assoc]
        rfl
      · cases h

theorem scan_reads {l : List α} {s : σ} {d : δ} (h : R.Reads s l d) : ∀ (taken r : List α),
    R.scan (some (s, taken)) (l ++ r) = (R.scan none r).map (Template.opened (taken ++ l) d) := by
  induction h with
  | done hstep =>
    intro taken r
    rw [List.singleton_append, scan, hstep]
  | more hstep _ ih =>
    intro taken r
    rw [List.cons_append, scan, hstep]
    refine (ih _ r).trans ?_
    rw [List.append_assoc, List.singleton_append]

theorem scan_plain : ∀ {l : List α}, R.mark ∉ l → ∀ r : List α,
    R.scan none (l ++ r) = (R.scan none r).map fun T => ⟨l ++ T.head, T.holes⟩
  | [], _, r => by simp
  | c :: l, h, r => by
    have hc : c ≠ R.mark := fun hc => h (by simp [hc])
    rw [List.cons_append, scan, if_neg hc, scan_plain (fun hm => h (List.mem_cons_of_mem _ hm)), Option.map_map]
    rfl

/-- **A template is read from its text, and from no other.** -/
theorem parse_iff {t : List α} : R.parse t = some T ↔ T.text = t ∧ R.Writes T := by
  constructor
  · exact fun h => (scan_sound t).1 T h
  · rintro ⟨rfl, h⟩
    obtain ⟨head, holes⟩ := T
    have hholes : ∀ holes : List (Hole α δ), R.Writes ⟨[], holes⟩ →
        R.scan none (holes.flatMap fun s => s.source ++ s.after) = some ⟨[], holes⟩ := by
      intro holes
      induction holes with
      | nil => exact fun _ => rfl
      | cons s holes ih =>
        intro h
        obtain ⟨⟨l, hsource, hreads⟩, hafter⟩ := h.holes s List.mem_cons_self
        have hrest := ih ⟨List.not_mem_nil, fun s hs => h.holes s (List.mem_cons_of_mem _ hs)⟩
        obtain ⟨source, d, after⟩ := s
        simp only at hsource hreads hafter
        rw [List.flatMap_cons, hsource]
        rw [List.append_assoc, List.cons_append, scan, if_pos rfl, scan_reads hreads, scan_plain hafter, hrest]
        simp [Template.opened]
    rw [Template.text, parse, scan_plain h.head, hholes holes ⟨List.not_mem_nil, h.holes⟩]
    simp

end

end Reader
end Lib
