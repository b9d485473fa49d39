import SafeSend.Redaction.Labels
/-!
# One pass over what the passes before left

Where every match a pass meets is recognised, the pass leaves none of its own pattern's matches and makes none of an
earlier one's.  The pass over JSON fields is the exception: it takes the quotes away, and what stood on either side of
one may make a match together.
-/
namespace SafeSend
namespace Redaction

open Lib

variable {beyond : Char → Bool} {p q : Credential} {t : List Char}

namespace Credential

variable (beyond) in
def tokens (p : Credential) (t : List Char) : List (Token Char) :=
  Lib.tokens (p.pattern.matchAt (isWord beyond)) none 0 t

variable (beyond) in
/-- The matches the substitution replaces. -/
def found (p : Credential) (t : List Char) : List (List Char) :=
  (p.tokens beyond t).filterMap fun
    | .kept _ => none
    | .found w => some w

variable (beyond) in
/-- `pattern.search(text)` finds nothing. -/
def Free (p : Credential) (t : List Char) : Prop := p.pattern.Free (isWord beyond) none t

theorem mem_found {w : List Char} : w ∈ p.found beyond t ↔ .found w ∈ p.tokens beyond t := by
  unfold found
  rw [List.mem_filterMap]
  constructor
  · rintro ⟨c | w', hmem, h⟩
    · cases h
    · cases h
      exact hmem
  · exact fun h => ⟨_, h, rfl⟩

end Credential

/-- The patterns before the JSON fields': runs of characters behind a marker or a name. -/
def EARLIER : List Credential := [slack, slackApp] ++ (EXACT ++ [bearer])

/-- The patterns of runs: all but the JSON fields'. -/
def RUNS : List Credential := EARLIER ++ [queryField]

theorem pos_of_pattern (hp : p ∈ TOKEN_PATTERNS) : 0 < p.body.minLength := by
  have hall : ∀ p ∈ TOKEN_PATTERNS, 0 < p.body.minLength := by decide
  exact hall p hp

theorem scanned_tokens (hp : 0 < p.body.minLength) (beyond : Char → Bool) (t : List Char) :
    Scanned (p.pattern.matchAt (isWord beyond)) none t (p.tokens beyond t) :=
  Pattern.scanned hp (isWord beyond) t

theorem scanned_from (hp : p ∈ TOKEN_PATTERNS) (beyond : Char → Bool) (prev : Option Char) (t : List Char) :
    Scanned (p.pattern.matchAt (isWord beyond)) prev t (Lib.tokens (p.pattern.matchAt (isWord beyond)) prev 0 t) :=
  Lib.scanned_tokens (Pattern.sound_matchAt (P := p.pattern) (pos_of_pattern hp)) t.length prev t (Nat.le_refl _)

/-- Where there is no match everything is kept. -/
theorem tokens_free (hp : p ∈ TOKEN_PATTERNS) {prev : Option Char} (h : p.pattern.Free (isWord beyond) prev t) :
    Lib.tokens (p.pattern.matchAt (isWord beyond)) prev 0 t = t.map Token.kept := by
  have hscan := scanned_from hp beyond prev t
  have hkept := eq_kept (Pattern.kept_of_free (P := p.pattern) (pos_of_pattern hp) hscan h)
  rwa [hscan.text] at hkept

/-- What a run's match is made of. -/
theorem run_words (hq : q ∈ RUNS) : 13 ≤ q.body.minLength ∧ q.body.avoids '«' = true ∧ q.body.avoids '»' = true ∧
    q.body.last '=' = false := by
  have hall : ∀ q ∈ RUNS, 13 ≤ q.body.minLength ∧ q.body.avoids '«' = true ∧ q.body.avoids '»' = true ∧
      q.body.last '=' = false := by decide
  exact hall q hq

/-! ## Replacements close the text off -/

theorem REDACTED_append (y : List Char) : REDACTED ++ y = '«' :: ("redacted".toList ++ '»' :: y) := by
  simp [REDACTED]

theorem isWord_guillemets (beyond : Char → Bool) : isWord beyond '«' = false ∧ isWord beyond '»' = false := ⟨rfl, rfl⟩

theorem seals (hq : q ∈ RUNS) (w : List Char) :
    Pattern.Seals (isWord beyond) q.pattern labelOf replacement w := by
  obtain ⟨hlength, hopen, hclose, heq⟩ := run_words hq
  have hpos : 0 < q.pattern.body.minLength := Nat.lt_of_lt_of_le (by decide) hlength
  intro x y prev hx hy
  have hmark : ∀ z, q.pattern.Free (isWord beyond) prev z → q.pattern.Free (isWord beyond) prev (z ++ (REDACTED ++ y)) := by
    intro z hz
    have hinner : q.pattern.Free (isWord beyond) none ("redacted".toList ++ '»' :: y) :=
      Pattern.free_cut hpos hclose (isWord_guillemets beyond).2 hy
        (Pattern.free_of_length (Nat.lt_of_lt_of_le (by decide) hlength))
    rw [REDACTED_append]
    exact Pattern.free_cut hpos hopen (isWord_guillemets beyond).1 hinner hz
  rcases replacement_eq w with h | h
  · rw [h, List.append_assoc, ← List.append_assoc x]
    exact hmark _ hx
  · have hsplit : x ++ (replacement w ++ y) = x ++ labelOf w ++ ['='] ++ (REDACTED ++ y) := by
      rw [h]
      simp
    rw [hsplit]
    exact hmark _ (Pattern.free_concat hpos heq hx)

/-! ## Labels -/

theorem recognised_parts (hp : p ∈ TOKEN_PATTERNS) {w : List Char} (hw : p.body.Lang w) (hr : Recognised w) :
    ∃ l s v, p.Reads l s v w ∧ Recognised (l ++ s) := by
  obtain ⟨l, s, v, h⟩ := Credential.lang_body_iff.1 hw
  refine ⟨l, s, v, h, ?_⟩
  by_contra hbad
  exact not_recognised_of_parts hp h hbad hr

/-- A label is, to `φ`, what the match begins with, and is a marker or a name. -/
def Labelled (φ : Char → Char) (w : List Char) : Prop :=
  Pattern.Kept φ labelOf w ∧ (labelOf w ∈ MARKERS ∨ IsName (labelOf w))

theorem labelled_of_marked {φ : Char → Char} {l s v w marker : List Char} (h : p.Reads l s v w) (hp : p = slack ∨ p ∈ MARKED)
    (hm : Marked l marker) (hmem : marker ∈ MARKERS) (hφ : l.map φ = marker.map φ) : Labelled φ w := by
  have hbare : p.opening = .empty ∧ p.separator = .empty ∧ p.closing = .empty := by
    simp only [MARKED, EXACT, List.mem_cons, List.not_mem_nil, or_false] at hp
    rcases hp with rfl | rfl | rfl | rfl | rfl | rfl <;> exact ⟨rfl, rfl, rfl⟩
  obtain ⟨-, rfl⟩ := h.of_bare hbare.1 hbare.2.1 hbare.2.2
  have hlabel : labelOf (l ++ v) = marker := by
    unfold labelOf
    rw [hm v]
    rfl
  unfold Labelled
  rw [hlabel]
  exact ⟨⟨l, v, rfl, by rw [hlabel]; exact hφ⟩, .inl hmem⟩

theorem labelled_fold (hp : p = slack ∨ p ∈ MARKED) {w : List Char} (hw : p.body.Lang w) (hr : Recognised w) :
    Labelled fold w := by
  rcases hp with rfl | hp
  · obtain ⟨l, s, v, h, hparts⟩ := recognised_parts List.mem_cons_self hw hr
    rcases slack_marked h.1 with ⟨marker, hmem, hm, hfold⟩ | hwide
    · exact labelled_of_marked h (.inl rfl) hm hmem hfold
    · obtain ⟨rfl, -⟩ := h.of_bare rfl rfl rfl
      rcases hparts with hm | hm | hm
      · rw [not_recognised_wide hwide] at hm
        cases hm
      · rw [List.append_nil] at hm
        exact absurd hm (slack_no_sign h.1).1
      · rw [List.append_nil] at hm
        exact absurd hm (slack_no_sign h.1).2
  · obtain ⟨l, s, v, h⟩ := Credential.lang_body_iff.1 hw
    obtain ⟨marker, hmem, hm, hfold⟩ := marked_label hp h.1
    exact labelled_of_marked h (.inr hp) hm hmem hfold

theorem labelled_exact (hp : p ∈ EXACT) {w : List Char} (hw : p.body.Lang w) : Labelled id w := by
  obtain ⟨l, s, v, h⟩ := Credential.lang_body_iff.1 hw
  obtain ⟨hmem, hm⟩ := exact_label hp h.1
  exact labelled_of_marked h (.inr (List.mem_cons_of_mem _ hp)) hm hmem rfl

theorem labelOf_reads (hp : p ∈ NAMED) {l s v w : List Char} (h : p.Reads l s v w) (hr : Recognised (l ++ s)) :
    labelOf w = l ∧ IsName l := by
  have hname := isName_of_label hp h.1
  obtain ⟨hmarker, hkey⟩ := labelOf_named hp h (hname.sign_in_separator hr)
  unfold labelOf
  rw [hmarker, hkey]
  exact ⟨rfl, hname⟩

theorem mem_of_named (hp : p ∈ NAMED) : p ∈ TOKEN_PATTERNS := mem_of_marked (.inr (.inr hp))

theorem labelled_named (hp : p = bearer ∨ p = queryField) {w : List Char} (hw : p.body.Lang w) (hr : Recognised w) :
    Labelled id w := by
  have hnamed : p ∈ NAMED := by
    rcases hp with rfl | rfl
    · exact List.mem_cons_self
    · exact List.mem_cons_of_mem _ (List.mem_cons_of_mem _ List.mem_cons_self)
  obtain ⟨l, s, v, h, hparts⟩ := recognised_parts (mem_of_named hnamed) hw hr
  obtain ⟨hlabel, hname⟩ := labelOf_reads hnamed h hparts
  obtain ⟨-, -, -, o, c, ho, -, rfl⟩ := h
  have hempty : o = [] := by rcases hp with rfl | rfl <;> exact ho
  unfold Labelled
  rw [hlabel]
  exact ⟨⟨l, s ++ (v ++ c), by rw [hempty]; rfl, by rw [hlabel]⟩, .inr hname⟩

/-! ## Runs -/

/-- No run's match lies within a label. -/
theorem not_in_label (hq : q ∈ RUNS) {l a x b : List Char} (hl : l ∈ MARKERS ∨ IsName l) (hsplit : l = a ++ x ++ b) :
    ¬ q.body.Lang x := by
  intro hx
  have hlength := Nat.le_trans (run_words hq).1 hx.minLength_le
  have htotal : l.length = a.length + x.length + b.length := by
    rw [hsplit, List.length_append, List.length_append]
  rcases hl with hl | hl
  · have hshort : ∀ l ∈ MARKERS, l.length ≤ 8 := by decide
    have := hshort l hl
    omega
  · have hlong := hl.length.2
    have ha : a = [] := List.length_eq_zero_iff.1 (by omega)
    have hb : b = [] := List.length_eq_zero_iff.1 (by omega)
    rw [ha, hb, List.nil_append, List.append_nil] at hsplit
    obtain ⟨c, r, hcr, hc⟩ := hl.head
    rw [← hsplit, hcr] at hx
    have hall : ∀ q ∈ RUNS, 13 < q.body.minLength ∨ ∀ c ∈ INITIALS, q.body.first c = false := by decide +kernel
    rcases hall q hq with hmin | hfirst
    · have hle := hx.minLength_le
      rw [← hcr] at hle
      omega
    · have hf := hx.first
      rw [hfirst c hc] at hf
      cases hf

/-- **A run's pass makes no match of a pattern** that had none, or is its own. -/
theorem run_free (hp : p ∈ RUNS) (hq : q ∈ RUNS) {cls : Char → Bool} {φ : Char → Char} (hgreedy : Regex.Greedy cls p.body)
    (hfirst : ∀ c, q.body.first c = true → cls c = true)
    (hφ : ∀ x y, x.map φ = y.map φ → q.body.Lang x → q.body.Lang y)
    (hlabelled : ∀ w ∈ p.found beyond t, Labelled φ w) (hfree : q = p ∨ q.Free beyond t) :
    q.Free beyond (p.sub beyond t) := by
  have hpos : ∀ {p}, p ∈ RUNS → 0 < p.pattern.body.minLength := fun hp => Nat.lt_of_lt_of_le (by decide) (run_words hp).1
  have hscan := scanned_tokens (hpos hp) beyond t
  obtain ⟨hstem, -, hothers⟩ := Pattern.seams_free (Q := q.pattern) (hpos hp) hgreedy (hpos hq) hfirst hφ hscan
    (hfree.imp_left fun h => by rw [h]) (fun w hw => (hlabelled w (Credential.mem_found.2 hw)).1)
    fun w hw a x b hsplit => not_in_label hq (hlabelled w (Credential.mem_found.2 hw)).2 hsplit
  exact Pattern.free_write (k := []) (fun w _ => seals hq w) hstem hothers

theorem run_of_earlier (hq : q ∈ EARLIER) : q ∈ RUNS := List.mem_append_left _ hq

/-- An earlier run's match begins with a letter or a digit of ASCII. -/
theorem alphanum_of_first (hq : q ∈ EARLIER) {c : Char} (h : q.body.first c = true) : c.isAlphanum = true := by
  have hfold : ∀ d ∈ "xab".toList, fold c = d → c.isAlphanum = true := by
    intro d hd h
    have hall : ∀ d ∈ "xab".toList, ∀ c ∈ unfolded d, c.isAlphanum = true := by decide
    exact hall d hd c (mem_unfolded h)
  simp only [EARLIER, EXACT, List.mem_append, List.mem_cons, List.not_mem_nil, or_false] at hq
  rcases hq with (rfl | rfl) | (rfl | rfl | rfl | rfl) | rfl
  · rw [first_slack, beq_iff_eq] at h
    exact hfold 'x' (by decide) h
  · have hx : fold c = 'x' := by
      simpa [slackApp, Credential.body, Credential.ignoreCase, Regex.first, Regex.comap, Regex.minLength, lit] using h
    exact hfold 'x' (by decide) hx
  · have hc : c = 'y' := by simpa [googleAccess, Credential.body, Regex.first, Regex.minLength, lit] using h
    rw [hc]
    decide
  · have hc : c = '1' := by simpa [googleRefresh, Credential.body, Regex.first, Regex.minLength, lit] using h
    rw [hc]
    decide
  · have hc : c = 'G' := by simpa [googleSecret, Credential.body, Regex.first, Regex.minLength, lit] using h
    rw [hc]
    decide
  · have hc : c = 's' := by simpa [apiKey, Credential.body, Regex.first, Regex.minLength, lit] using h
    rw [hc]
    decide
  · rw [first_bearer, Bool.or_eq_true, beq_iff_eq, beq_iff_eq] at h
    rcases h with h | h
    · exact hfold 'a' (by decide) h
    · exact hfold 'b' (by decide) h

theorem alnumOr_of_alphanum {others : List Char} {c : Char} (h : c.isAlphanum = true) : alnumOr others c = true := by
  unfold alnumOr
  rw [h, Bool.true_or]

theorem alphanum_fold {c : Char} (h : c.isAlphanum = true) : (fold c).isAlphanum = true :=
  forall_ascii (p := fun c => c.isAlphanum = true → (fold c).isAlphanum = true) (by decide +kernel) (isAlphanum_ascii h) h

/-- Each run goes on as long as its class does, which has the letters and digits of ASCII. -/
theorem greedy_value (a b c : Regex Char) (cls : Char → Bool) (n : Nat) :
    Regex.Greedy cls (.seq a (.seq b (.seq c (.seq (.many cls n) .empty)))) :=
  .seq a (.seq b (.seq c (Regex.greedy_many cls n).seq_empty))

theorem greedy_run (hp : p ∈ RUNS) :
    ∃ cls, Regex.Greedy cls p.body ∧ (∀ c, c.isAlphanum = true → cls c = true) ∧
      (p = queryField → ∀ c, (fold c).isAlphanum = true → cls c = true) := by
  simp only [RUNS, EARLIER, EXACT, List.mem_append, List.mem_cons, List.not_mem_nil, or_false] at hp
  rcases hp with ((rfl | rfl) | (rfl | rfl | rfl | rfl) | rfl) | rfl
  · exact ⟨alnumOr ['-'] ∘ fold, greedy_value _ _ _ _ 8, fun c h => alnumOr_of_alphanum (alphanum_fold h),
      fun _ c h => alnumOr_of_alphanum h⟩
  · exact ⟨alnumOr ['-'] ∘ fold, greedy_value _ _ _ _ 8, fun c h => alnumOr_of_alphanum (alphanum_fold h),
      fun _ c h => alnumOr_of_alphanum h⟩
  · exact ⟨alnumOr ['.', '_', '-'], greedy_value _ _ _ _ 10, fun c h => alnumOr_of_alphanum h, fun h => by cases h⟩
  · exact ⟨alnumOr ['.', '_', '-'], greedy_value _ _ _ _ 10, fun c h => alnumOr_of_alphanum h, fun h => by cases h⟩
  · exact ⟨alnumOr ['_', '-'], greedy_value _ _ _ _ 10, fun c h => alnumOr_of_alphanum h, fun h => by cases h⟩
  · exact ⟨alnumOr ['_'], greedy_value _ _ _ _ 8, fun c h => alnumOr_of_alphanum h, fun h => by cases h⟩
  · exact ⟨alnumOr ['.', '_', '-'] ∘ fold, greedy_value _ _ _ _ 12, fun c h => alnumOr_of_alphanum (alphanum_fold h),
      fun _ c h => alnumOr_of_alphanum h⟩
  · exact ⟨alnumOr ['.', '_', '-'] ∘ fold, greedy_value _ _ _ _ 6, fun c h => alnumOr_of_alphanum (alphanum_fold h),
      fun _ c h => alnumOr_of_alphanum h⟩

theorem first_queryField (c : Char) :
    queryField.body.first c = (fold c == 'a' || (fold c == 'r' || (fold c == 'c' || fold c == 'i'))) := by
  simp [queryField, Credential.body, Credential.ignoreCase, Regex.first, Regex.comap, Regex.minLength, lit, oneOf]

/-- A pattern that ignores case does so throughout. -/
theorem lang_of_map {p : Credential} {x y : List Char} (hmap : x.map fold = y.map fold) (h : p.ignoreCase.body.Lang x) :
    p.ignoreCase.body.Lang y := by
  have hbody : p.ignoreCase.body = p.body.comap fold := rfl
  rw [hbody, Regex.lang_comap] at h ⊢
  rwa [← hmap]

theorem lang_of_found (hp : p ∈ TOKEN_PATTERNS) {w : List Char} (hw : .found w ∈ p.tokens beyond t) : p.body.Lang w :=
  Pattern.lang_of_found (P := p.pattern) (pos_of_pattern hp) (scanned_tokens (pos_of_pattern hp) beyond t) w hw

theorem pattern_of_run (hq : q ∈ RUNS) : q ∈ TOKEN_PATTERNS := by
  have hsplit : TOKEN_PATTERNS = EARLIER ++ [jsonField, queryField] := rfl
  rw [hsplit, List.mem_append]
  rcases List.mem_append.1 hq with hq | hq
  · exact .inl hq
  · rw [List.mem_singleton.1 hq]
    exact .inr (List.mem_cons_of_mem _ List.mem_cons_self)

/-- **Slack's two passes**, which ignore case and write their markers in small letters. -/
theorem slack_free (hp : p = slack ∨ p = slackApp) (hq : q = slack ∨ q = slackApp)
    (hrec : ∀ w ∈ p.found beyond t, Recognised w) (hfree : q = p ∨ q.Free beyond t) : q.Free beyond (p.sub beyond t) := by
  have hmem : ∀ {p}, p = slack ∨ p = slackApp → p ∈ EARLIER := by
    rintro p (rfl | rfl)
    · exact List.mem_cons_self
    · exact List.mem_cons_of_mem _ List.mem_cons_self
  have hrun := run_of_earlier (hmem hp)
  obtain ⟨cls, hgreedy, hcls, -⟩ := greedy_run hrun
  refine run_free (φ := fold) hrun (run_of_earlier (hmem hq)) hgreedy (fun c h => hcls c (alphanum_of_first (hmem hq) h)) ?_
    (fun w hw => ?_) hfree
  · intro x y hmap
    rcases hq with rfl | rfl
    · exact lang_of_map hmap
    · exact lang_of_map hmap
  · refine labelled_fold (hp.imp_right ?_) (lang_of_found (pattern_of_run hrun) (Credential.mem_found.1 hw)) (hrec w hw)
    rintro rfl
    exact List.mem_cons_self

/-- **The passes from there to the bearer's**, which keep their labels as they are. -/
theorem later_free (hp : p ∈ EXACT ++ [bearer]) (hq : q ∈ EARLIER) (hrec : ∀ w ∈ p.found beyond t, Recognised w)
    (hfree : q = p ∨ q.Free beyond t) : q.Free beyond (p.sub beyond t) := by
  have hearlier : p ∈ EARLIER := List.mem_append_right [slack, slackApp] hp
  have hrun := run_of_earlier hearlier
  obtain ⟨cls, hgreedy, hcls, -⟩ := greedy_run hrun
  refine run_free (φ := id) hrun (run_of_earlier hq) hgreedy (fun c h => hcls c (alphanum_of_first hq h)) ?_ (fun w hw => ?_)
    hfree
  · intro x y hmap
    rw [List.map_id, List.map_id] at hmap
    rw [hmap]
    exact id
  · have hlang := lang_of_found (pattern_of_run hrun) (Credential.mem_found.1 hw)
    rcases List.mem_append.1 hp with hp | hp
    · exact labelled_exact hp hlang
    · exact labelled_named (.inl (List.mem_singleton.1 hp)) hlang (hrec w hw)

theorem queryField_recognised {w : List Char} (hw : queryField.body.Lang w) : Recognised w := by
  obtain ⟨l, s, v, -, hs, -, o, c, -, -, rfl⟩ := Credential.lang_body_iff.1 hw
  rw [lang_fold_char (d := '=') rfl (by decide) hs]
  exact .inr (.inl (by simp))

/-- **The last pass** makes no match of a run. -/
theorem query_free (hq : q ∈ RUNS) (hfree : q = queryField ∨ q.Free beyond t) :
    q.Free beyond (queryField.sub beyond t) := by
  have hmem : queryField ∈ RUNS := List.mem_append_right _ List.mem_cons_self
  obtain ⟨cls, hgreedy, hcls, hfold⟩ := greedy_run hmem
  have hlang : ∀ w ∈ queryField.found beyond t, queryField.body.Lang w := fun w hw =>
    lang_of_found (pattern_of_run hmem) (Credential.mem_found.1 hw)
  refine run_free (φ := id) hmem hq hgreedy (fun c h => ?_) ?_ (fun w hw => ?_) hfree
  · rcases List.mem_append.1 hq with hq | hq
    · exact hcls c (alphanum_of_first hq h)
    · rw [List.mem_singleton.1 hq, first_queryField] at h
      simp only [Bool.or_eq_true, beq_iff_eq] at h
      refine hfold rfl c ?_
      rcases h with h | h | h | h <;> rw [h] <;> decide
  · intro x y hmap
    rw [List.map_id, List.map_id] at hmap
    rw [hmap]
    exact id
  · exact labelled_named (.inr rfl) (hlang w hw) (queryField_recognised (hlang w hw))

end Redaction
end SafeSend
