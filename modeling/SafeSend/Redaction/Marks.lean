import SafeSend.Redaction.Passes
/-!
# What of a text is left standing

The passes over a text some of whose characters are marked.  A character that is kept keeps its mark and a replacement
has none, so the marks that are left are those of characters no pattern replaced.
-/
namespace SafeSend
namespace Redaction

open Lib

/-- A character and its mark. -/
abbrev Letter := Char × Bool

def plain (l : List Char) : List Letter := l.map fun c => (c, false)

def marked (l : List Char) : List Letter := l.map fun c => (c, true)

def replaced (w : List Letter) : List Letter := plain (replacement (w.map Prod.fst))

/-- No mark is left. -/
def Clear (t : List Letter) : Prop := ∀ c ∈ t, c.2 = false

variable {beyond : Char → Bool} {p q : Credential} {t : List Letter}

variable (beyond) in
def Credential.markedTokens (p : Credential) (t : List Letter) : List (Token Letter) :=
  Lib.tokens (reading Prod.fst (p.pattern.matchAt (isWord beyond))) none 0 t

variable (beyond) in
/-- `pattern.sub(_replacement, text)`, of letters. -/
def Credential.subMarked (p : Credential) (t : List Letter) : List Letter :=
  (p.markedTokens beyond t).flatMap (Token.write replaced)

variable (beyond) in
def redactMarked (t : List Letter) : List Letter := TOKEN_PATTERNS.foldl (fun t p => p.subMarked beyond t) t

@[simp] theorem plain_fst (l : List Char) : (plain l).map Prod.fst = l := by
  rw [plain, List.map_map]
  exact List.map_id l

@[simp] theorem marked_fst (l : List Char) : (marked l).map Prod.fst = l := by
  rw [marked, List.map_map]
  exact List.map_id l

theorem clear_plain (l : List Char) : Clear (plain l) := by
  intro c hc
  obtain ⟨d, -, rfl⟩ := List.mem_map.1 hc
  rfl

theorem subMarked_fst (p : Credential) (t : List Letter) :
    (p.subMarked beyond t).map Prod.fst = p.sub beyond (t.map Prod.fst) :=
  rewrite_reading (fun _ => plain_fst _) t

/-- **Marks change nothing of what is redacted.** -/
theorem redactMarked_fst (beyond : Char → Bool) (t : List Letter) :
    (redactMarked beyond t).map Prod.fst = redact beyond (t.map Prod.fst) := by
  have hfold : ∀ (ps : List Credential) (t : List Letter), (ps.foldl (fun t p => p.subMarked beyond t) t).map Prod.fst =
      ps.foldl (fun t p => p.sub beyond t) (t.map Prod.fst) := by
    intro ps
    induction ps with
    | nil => exact fun t => rfl
    | cons p ps ih =>
      intro t
      rw [List.foldl_cons, List.foldl_cons, ih, subMarked_fst]
  exact hfold TOKEN_PATTERNS t

/-! ## One pass -/

theorem scanned_marked (hp : p ∈ TOKEN_PATTERNS) (beyond : Char → Bool) (t : List Letter) :
    Scanned (reading Prod.fst (p.pattern.matchAt (isWord beyond))) none t (p.markedTokens beyond t) :=
  Lib.scanned_tokens (sound_reading Prod.fst (Pattern.sound_matchAt (pos_of_pattern hp))) t.length none t (Nat.le_refl _)

/-- A word that is found is a match, and the longest the matcher takes. -/
theorem found_marked (hp : p ∈ TOKEN_PATTERNS) {ts₁ ts₂ : List (Token Letter)} {w : List Letter}
    (h : p.markedTokens beyond t = ts₁ ++ .found w :: ts₂) :
    p.pattern.Starts (isWord beyond) ((ts₁.flatMap Token.text).getLast?.map Prod.fst) (w.map Prod.fst) ∧
      (p.body.rests (w.map Prod.fst ++ (ts₂.flatMap Token.text).map Prod.fst)).head? =
        some ((ts₂.flatMap Token.text).map Prod.fst) := by
  have hscan := scanned_marked hp beyond t
  rw [h] at hscan
  have hbehind := hscan.behind
  rw [Option.or_none, List.flatMap_cons] at hbehind
  have hm := hbehind.eq_some
  unfold reading at hm
  rw [List.map_append, ← List.length_map Prod.fst] at hm
  exact Pattern.matchAt_append (P := p.pattern) (pos_of_pattern hp) hm

theorem clear_write {ts : List (Token Letter)} (h : Clear (ts.flatMap Token.text)) :
    Clear (ts.flatMap (Token.write replaced)) := by
  intro c hc
  obtain ⟨tok, htok, hc⟩ := List.mem_flatMap.1 hc
  cases tok with
  | kept d => exact h c (List.mem_flatMap.2 ⟨_, htok, hc⟩)
  | found w => exact clear_plain _ c hc

theorem subMarked_clear (hp : p ∈ TOKEN_PATTERNS) (h : Clear t) : Clear (p.subMarked beyond t) := by
  refine clear_write ?_
  have htext := (scanned_marked hp beyond t).text
  rw [htext]
  exact h

theorem clear_passes {ps : List Credential} (hps : ∀ p ∈ ps, p ∈ TOKEN_PATTERNS) :
    ∀ {t : List Letter}, Clear t → Clear (ps.foldl (fun t p => p.subMarked beyond t) t) := by
  induction ps with
  | nil => exact fun h => h
  | cons p ps ih =>
    intro t h
    exact ih (fun q hq => hps q (List.mem_cons_of_mem _ hq)) (subMarked_clear (hps p List.mem_cons_self) h)

theorem last_replaced (w : List Letter) : (replaced w).getLast? = some ('»', false) := by
  have hlast : ∀ l : List Char, (plain (l ++ REDACTED)).getLast? = some ('»', false) := by
    intro l
    have hsplit : REDACTED = "«redacted".toList ++ ['»'] := rfl
    rw [hsplit, ← List.append_assoc, plain, List.map_append, List.map_singleton, List.getLast?_concat]
  unfold replaced
  rcases replacement_eq (w.map Prod.fst) with h | h
  · rw [h]
    exact hlast _
  · rw [h, List.append_cons]
    exact hlast _

/-! ## Where no match begins -/

theorem isWord_of_run {c : Char} (h : alnumOr ['_'] c = true) : isWord beyond c = true := by
  have hascii : c.toNat < 128 := by
    unfold alnumOr at h
    rw [Bool.or_eq_true] at h
    rcases h with h | h
    · exact isAlphanum_ascii h
    · rw [List.mem_singleton.1 (List.contains_iff_mem.1 h)]
      decide
  unfold isWord
  rw [if_pos hascii]
  simpa [alnumOr] using h

theorem bounded_or_quote (hp : p ∈ TOKEN_PATTERNS) :
    p.bounded = true ∨ ∀ c, p.body.first c = true → c = '"' := by
  simp only [TOKEN_PATTERNS, List.mem_cons, List.not_mem_nil, or_false] at hp
  rcases hp with rfl | rfl | rfl | rfl | rfl | rfl | rfl | rfl | rfl
  all_goals first | exact .inl rfl | skip
  refine .inr fun c hc => ?_
  have hfold : fold c = '"' := by
    simpa [jsonField, Credential.body, Credential.ignoreCase, Regex.first, Regex.comap, Regex.minLength, lit] using hc
  exact eq_of_fold hfold (by decide)

/-- No match begins with a character that is the first of none, nor in the middle of a run. -/
theorem no_match (hp : p ∈ TOKEN_PATTERNS) {prev : Option Char} {c : Char} {l : List Char}
    (h : p.body.first c = false ∨ prev.any (isWord beyond) = true ∧ alnumOr ['_'] c = true) :
    p.pattern.matchAt (isWord beyond) prev (c :: l) = none := by
  have hpos : 0 < p.pattern.body.minLength := pos_of_pattern hp
  rw [Pattern.matchAt_eq_none_iff hpos]
  intro w r hw hs
  obtain ⟨d, w, rfl⟩ := List.exists_cons_of_ne_nil (hs.ne_nil hpos)
  obtain ⟨rfl, -⟩ := List.cons.inj hw
  have hfirst : p.body.first c = true := hs.1.first
  rcases h with h | ⟨hprev, hc⟩
  · rw [h] at hfirst
    cases hfirst
  · rcases bounded_or_quote hp with hb | hquote
    · have hboundary := hs.2 hb
      unfold atBoundary at hboundary
      rw [hprev, List.head?_cons, Option.any_some, isWord_of_run hc] at hboundary
      cases hboundary
    · rw [hquote c hfirst] at hc
      cases hc

end Redaction
end SafeSend
