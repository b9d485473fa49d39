import SafeSend.Redaction.Passes
/-!
# Redacting twice

What a redaction leaves is left by the next one, where every match the passes met was recognised and the pass over JSON
fields joined nothing.
-/
namespace SafeSend
namespace Redaction

open Lib

variable {beyond : Char → Bool} {p q : Credential} {t : List Char}

/-! ## What the pass over JSON fields joins -/

/-- A quote that stays, if there is one. -/
def closing (ts : List (Token Char)) : List Char :=
  if ts.any fun | .kept c => c == '"' | .found _ => false then ['"'] else []

/-- At each match, the text kept since the one before and the label behind it, up to a later quote. -/
def joins : List Char → List (Token Char) → List (List Char)
  | _, [] => []
  | k, .kept c :: ts => joins (k ++ [c]) ts
  | k, .found w :: ts => (k ++ (labelOf w ++ closing ts)) :: joins [] ts

theorem joins_free {Q : Pattern Char} {word : Char → Bool} : ∀ {ts : List (Token Char)} {k : List Char} {prev : Option Char},
    prev.any word = false → Q.Free word prev (k ++ ts.flatMap Token.text) →
      (∀ w, .found w ∈ ts → ∃ c, w.getLast? = some c ∧ word c = false) → (∀ s ∈ joins k ts, Q.Free word none s) →
        Q.Free word prev (k ++ Pattern.stem labelOf ts) ∧ ∀ s ∈ Pattern.others labelOf ts, Q.Free word none s
  | [], _, _, _, hfree, _, _ => ⟨hfree, fun s hs => absurd hs List.not_mem_nil⟩
  | .kept c :: ts, k, prev, hprev, hfree, hlast, hjoins => by
    have hsplit : ∀ l, k ++ c :: l = (k ++ [c]) ++ l := fun l => by simp
    have hfree' : Q.Free word prev ((k ++ [c]) ++ ts.flatMap Token.text) := by
      rw [← hsplit]
      exact hfree
    obtain ⟨hstem, hothers⟩ := joins_free hprev hfree' (fun w hw => hlast w (List.mem_cons_of_mem _ hw)) hjoins
    rw [← hsplit] at hstem
    exact ⟨hstem, hothers⟩
  | .found w :: ts, k, prev, hprev, hfree, hlast, hjoins => by
    have hhead : Q.Free word none (k ++ (labelOf w ++ closing ts)) := hjoins _ List.mem_cons_self
    rw [← List.append_assoc] at hhead
    obtain ⟨c, hc, hword⟩ := hlast w List.mem_cons_self
    have hrest : Q.Free word none ([] ++ ts.flatMap Token.text) := by
      have hright : Q.Free word prev (k ++ w ++ ts.flatMap Token.text) := by
        rw [List.append_assoc]
        exact hfree
      refine hright.right.congr ?_
      rw [List.getLast?_append, hc, Option.some_or, Option.some_or]
      exact hword
    obtain ⟨hstem, hothers⟩ := joins_free (Option.any_none) hrest (fun w hw => hlast w (List.mem_cons_of_mem _ hw))
      fun s hs => hjoins s (List.mem_cons_of_mem _ hs)
    refine ⟨hhead.left.congr hprev.symm, ?_⟩
    rintro s (_ | ⟨_, hs⟩)
    · exact hstem
    · exact hothers s hs

/-! ## The words of a JSON field -/

/-- The name and the colon, between the quotes. -/
def JsonHead (l m : List Char) : Prop := jsonField.label.Lang l ∧ jsonField.separator.Lang ('"' :: (m ++ ['"']))

theorem jsonField_named : jsonField ∈ NAMED := List.mem_cons_of_mem _ List.mem_cons_self

theorem isSpace_marks {c : Char} (h : Text.isSpace c = true) : c ≠ '"' ∧ c ≠ '«' := by
  constructor
  · rintro rfl
    cases h
  · rintro rfl
    cases h

theorem lang_spaces {s : List Char} (h : ((Regex.many Text.isSpace 0).comap fold).Lang s) :
    ∀ c ∈ s, Text.isSpace c = true := by
  intro c hc
  rw [← isSpace_fold]
  exact h.2 c hc

theorem jsonHead_marks {l m : List Char} (h : JsonHead l m) : ('"' ∉ l ∧ '«' ∉ l) ∧ '"' ∉ m ∧ '«' ∉ m := by
  obtain ⟨hl, q, _, hm, hq, sp, _, rfl, hsp, d, _, rfl, hd, sp', e, rfl, hsp', he⟩ := h
  have hname : IsName l := isName_of_label (p := jsonField) (jsonField_named) hl
  rw [lang_fold_char (d := '"') rfl (by decide) hq, lang_fold_char (d := ':') rfl (by decide) hd,
    lang_fold_char (d := '"') rfl (by decide) he] at hm
  have hm' : m ++ ['"'] = (sp ++ ':' :: sp') ++ ['"'] := by
    rw [(List.cons.inj hm).2]
    simp
  have hmid : ∀ c ∈ m, c ≠ '"' ∧ c ≠ '«' := by
    rw [List.append_cancel_right hm']
    intro c hc
    rcases List.mem_append.1 hc with hc | hc
    · exact isSpace_marks (lang_spaces hsp c hc)
    · rcases List.mem_cons.1 hc with rfl | hc
      · decide
      · exact isSpace_marks (lang_spaces hsp' c hc)
  exact ⟨⟨hname.not_mem (by decide), hname.not_mem (by decide)⟩, fun h => (hmid _ h).1 rfl, fun h => (hmid _ h).2 rfl⟩

theorem lang_jsonField_iff {w : List Char} : jsonField.body.Lang w ↔
    ∃ l m v, w = '"' :: (l ++ '"' :: (m ++ '"' :: (v ++ ['"']))) ∧ JsonHead l m ∧ v ≠ [] ∧ '"' ∉ v := by
  constructor
  · rintro ⟨o, _, rfl, ho, l, _, rfl, hl, s, _, rfl, hs, v, c, rfl, hv, hc⟩
    obtain ⟨q, _, rfl, hq, sp, _, rfl, hsp, d, _, rfl, hd, sp', e, rfl, hsp', he⟩ := id hs
    rw [lang_fold_char (d := '"') rfl (by decide) hq, lang_fold_char (d := ':') rfl (by decide) hd,
      lang_fold_char (d := '"') rfl (by decide) he] at hs
    refine ⟨l, sp ++ ':' :: sp', v, ?_, ⟨hl, by simpa using hs⟩, ?_, ?_⟩
    · rw [lang_fold_char (d := '"') rfl (by decide) ho, lang_fold_char (d := '"') rfl (by decide) hc,
        lang_fold_char (d := '"') rfl (by decide) hq, lang_fold_char (d := ':') rfl (by decide) hd,
        lang_fold_char (d := '"') rfl (by decide) he]
      simp
    · rintro rfl
      exact absurd hv.1 (by decide)
    · intro hm
      have hbad := hv.2 _ hm
      cases hbad
  · rintro ⟨l, m, v, rfl, ⟨hl, hs⟩, hne, hv⟩
    have hquote : ((lit "\"").comap fold).Lang ['"'] := lang_fold_lit.2 rfl
    refine ⟨['"'], _, rfl, hquote, l, _, rfl, hl, '"' :: (m ++ ['"']), v ++ ['"'], by simp, hs, v, ['"'], rfl, ?_, hquote⟩
    refine ⟨List.length_pos_iff.2 hne, fun c hc => ?_⟩
    rw [Function.comp_apply, bne_iff_ne]
    intro hfold
    rw [eq_of_fold hfold (by decide)] at hc
    exact hv hc

/-- A replacement has no quote, and has its mark. -/
theorem replacement_marks {w : List Char} (h : labelOf w ∈ MARKERS ∨ IsName (labelOf w)) :
    '"' ∉ replacement w ∧ '«' ∈ replacement w := by
  have hlabel : '"' ∉ labelOf w := by
    rcases h with h | h
    · have hall : ∀ l ∈ MARKERS, '"' ∉ l := by decide
      exact hall _ h
    · exact h.not_mem (by decide)
  have hmark : '"' ∉ REDACTED ∧ '«' ∈ REDACTED := by decide
  rcases replacement_eq w with hw | hw
  · rw [hw]
    exact ⟨fun hm => (List.mem_append.1 hm).elim hlabel hmark.1, List.mem_append_right _ hmark.2⟩
  · rw [hw]
    refine ⟨fun hm => ?_, List.mem_append_right _ (List.mem_cons_of_mem _ hmark.2)⟩
    rcases List.mem_append.1 hm with hm | hm
    · exact hlabel hm
    · exact hmark.1 ((List.mem_cons.1 hm).resolve_left (by decide))

/-- **A JSON field in what a pass writes** has its quotes, its name and its colon from the text. -/
theorem json_in_write {ts : List (Token Char)} {a w b : List Char}
    (hmarks : ∀ w, .found w ∈ ts → '"' ∉ replacement w ∧ '«' ∈ replacement w)
    (hout : ts.flatMap (Token.write replacement) = a ++ w ++ b) (hw : jsonField.body.Lang w) :
    ∃ t₀ l m t₃ t₄, ts = t₀ ++ .kept '"' :: (l.map .kept ++ .kept '"' :: (m.map .kept ++ .kept '"' :: (t₃ ++ .kept '"' :: t₄))) ∧
      JsonHead l m ∧ t₃.flatMap (Token.write replacement) ≠ [] ∧ '"' ∉ t₃.flatMap (Token.write replacement) := by
  obtain ⟨l, m, v, rfl, hhead, hne, hv⟩ := lang_jsonField_iff.1 hw
  obtain ⟨⟨-, hl⟩, -, hm⟩ := jsonHead_marks hhead
  have hquote : ∀ w, .found w ∈ ts → '"' ∉ replacement w := fun w h => (hmarks w h).1
  have hmark : ∀ w, .found w ∈ ts → '«' ∈ replacement w := fun w h => (hmarks w h).2
  simp only [List.append_assoc, List.cons_append, List.nil_append] at hout
  obtain ⟨t₀, r₀, rfl, -, hr₀⟩ := kept_of_write hquote hout
  have hsub₀ : ∀ w, .found w ∈ r₀ → .found w ∈ t₀ ++ Token.kept '"' :: r₀ := fun w h => by simp [h]
  obtain ⟨t₁, r₁, rfl, ht₁, hr₁⟩ := kept_of_write (fun w h => hquote w (hsub₀ w h)) hr₀
  have hsub₁ : ∀ w, .found w ∈ r₁ → .found w ∈ t₁ ++ Token.kept '"' :: r₁ := fun w h => by simp [h]
  obtain ⟨t₂, r₂, rfl, ht₂, hr₂⟩ := kept_of_write (fun w h => hquote w (hsub₀ w (hsub₁ w h))) hr₁
  have hsub₂ : ∀ w, .found w ∈ r₂ → .found w ∈ t₂ ++ Token.kept '"' :: r₂ := fun w h => by simp [h]
  obtain ⟨t₃, t₄, rfl, ht₃, -⟩ := kept_of_write (fun w h => hquote w (hsub₀ w (hsub₁ w (hsub₂ w h)))) hr₂
  have hkept₁ : t₁ = l.map .kept := eq_kept_of_write (fun w h => hmark w (hsub₀ w (by simp [h]))) ht₁ hl
  have hkept₂ : t₂ = m.map .kept := eq_kept_of_write (fun w h => hmark w (hsub₀ w (hsub₁ w (by simp [h])))) ht₂ hm
  refine ⟨t₀, l, m, t₃, t₄, by rw [hkept₁, hkept₂], hhead, ?_, ?_⟩
  · rwa [ht₃]
  · rwa [ht₃]

/-! ## The two last passes -/

theorem named_marks (hp : p ∈ NAMED) {w : List Char} (hw : p.body.Lang w) (hr : Recognised w) :
    '"' ∉ replacement w ∧ '«' ∈ replacement w := by
  obtain ⟨l, s, v, h, hparts⟩ := recognised_parts (mem_of_named hp) hw hr
  obtain ⟨hlabel, hname⟩ := labelOf_reads hp h hparts
  exact replacement_marks (.inr (by rwa [hlabel]))

/-- **The last pass makes no JSON field**: what it finds has no quotes. -/
theorem query_json_free (h : jsonField.Free beyond t) : jsonField.Free beyond (queryField.sub beyond t) := by
  have hmem : queryField ∈ NAMED := List.mem_cons_of_mem _ (List.mem_cons_of_mem _ List.mem_cons_self)
  have hlang : ∀ w, .found w ∈ queryField.tokens beyond t → queryField.body.Lang w := fun w =>
    lang_of_found (mem_of_named hmem)
  intro a w b hout hs
  obtain ⟨t₀, l, m, t₃, t₄, hts, hhead, hne, hv⟩ := json_in_write
    (fun w hw => named_marks hmem (hlang w hw) (queryField_recognised (hlang w hw))) hout hs.1
  have htext := (scanned_tokens (pos_of_pattern (mem_of_named hmem)) beyond t).text
  rw [hts] at htext
  have hvalue : t₃.flatMap Token.text ≠ [] ∧ '"' ∉ t₃.flatMap Token.text := by
    constructor
    · intro hnil
      cases t₃ with
      | nil => exact hne rfl
      | cons tok rest =>
        rw [List.flatMap_cons, List.append_eq_nil_iff] at hnil
        cases tok with
        | kept c => cases hnil.1
        | found w =>
          have hw := hlang w (by rw [hts]; simp)
          rw [show w = [] from hnil.1] at hw
          exact absurd hw.minLength_le (by decide)
    · intro hq
      obtain ⟨tok, htok, hq⟩ := List.mem_flatMap.1 hq
      cases tok with
      | kept c =>
        rw [show '"' = c from List.mem_singleton.1 hq] at hv
        exact hv (List.mem_flatMap.2 ⟨_, htok, List.mem_singleton.2 rfl⟩)
      | found w => exact (hlang w (by rw [hts]; simp [htok])).not_mem (by decide) hq
  have hword : jsonField.body.Lang ('"' :: (l ++ '"' :: (m ++ '"' :: (t₃.flatMap Token.text ++ ['"'])))) :=
    lang_jsonField_iff.2 ⟨l, m, _, rfl, hhead, hvalue.1, hvalue.2⟩
  refine h (t₀.flatMap Token.text) _ (t₄.flatMap Token.text) ?_ ⟨hword, fun hb => by cases hb⟩
  rw [← htext]
  simp [Token.text]

theorem jsonField_recognised {w : List Char} (hw : jsonField.body.Lang w) : Recognised w := by
  obtain ⟨l, s, v, -, hs, -, o, c, -, -, rfl⟩ := Credential.lang_body_iff.1 hw
  obtain ⟨q, _, rfl, -, sp, _, rfl, -, d, r, rfl, hd, -⟩ := hs
  rw [lang_fold_char (d := ':') rfl (by decide) hd]
  exact .inr (.inr (by simp))

theorem jsonField_label {w : List Char} (hw : jsonField.body.Lang w) : IsName (labelOf w) := by
  obtain ⟨l, s, v, h, hparts⟩ := recognised_parts (mem_of_named jsonField_named) hw (jsonField_recognised hw)
  obtain ⟨hlabel, hname⟩ := labelOf_reads jsonField_named h hparts
  rwa [hlabel]

/-- **The pass over JSON fields makes no match of a run** where none is in what it joins. -/
theorem json_free (hq : q ∈ EARLIER) (hfree : q.Free beyond t)
    (hjoins : ∀ s ∈ joins [] (jsonField.tokens beyond t), q.Free beyond s) : q.Free beyond (jsonField.sub beyond t) := by
  have hmem : jsonField ∈ TOKEN_PATTERNS := mem_of_named jsonField_named
  have htext := (scanned_tokens (pos_of_pattern hmem) beyond t).text
  have hlast : ∀ w, .found w ∈ jsonField.tokens beyond t → ∃ c, w.getLast? = some c ∧ isWord beyond c = false := by
    intro w hw
    obtain ⟨l, m, v, rfl, -⟩ := lang_jsonField_iff.1 (lang_of_found hmem hw)
    exact ⟨'"', by simp [List.getLast?_cons, List.getLast?_append], rfl⟩
  have hfull : q.pattern.Free (isWord beyond) none ([] ++ (jsonField.tokens beyond t).flatMap Token.text) := by
    rw [htext]
    exact hfree
  obtain ⟨hstem, hothers⟩ := joins_free Option.any_none hfull hlast hjoins
  exact Pattern.free_write (k := []) (fun w _ => seals (run_of_earlier hq) w) hstem hothers

theorem joins_kept : ∀ (x k : List Char) (w : List Char) (r : List (Token Char)),
    k ++ x ++ (labelOf w ++ closing r) ∈ joins k (x.map Token.kept ++ .found w :: r)
  | [], k, w, r => by
    rw [List.append_nil]
    exact List.mem_cons_self
  | c :: x, k, w, r => by
    have h := joins_kept x (k ++ [c]) w r
    rw [List.append_assoc k [c] x] at h
    exact h

/-- What is joined at a match has the text kept right before it. -/
theorem mem_joins (x : List Char) (w : List Char) (r : List (Token Char)) : ∀ (ts : List (Token Char)) (k : List Char),
    ∃ y, y ++ x ++ (labelOf w ++ closing r) ∈ joins k (ts ++ (x.map Token.kept ++ .found w :: r))
  | [], k => ⟨k, joins_kept x k w r⟩
  | .kept c :: ts, k => mem_joins x w r ts (k ++ [c])
  | .found w' :: ts, k => by
    obtain ⟨y, hy⟩ := mem_joins x w r ts []
    exact ⟨y, List.mem_cons_of_mem _ hy⟩

/-- **The pass over JSON fields makes no field** where none is in what it joins. -/
theorem json_json_free (hjoins : ∀ s ∈ joins [] (jsonField.tokens beyond t), jsonField.Free beyond s) :
    jsonField.Free beyond (jsonField.sub beyond t) := by
  have hpos : 0 < jsonField.pattern.body.minLength := pos_of_pattern (mem_of_named jsonField_named)
  have hscan := scanned_tokens (p := jsonField) hpos beyond t
  have hlang : ∀ w, .found w ∈ jsonField.tokens beyond t → jsonField.body.Lang w := fun w =>
    lang_of_found (mem_of_named jsonField_named)
  intro a w b hout hs
  obtain ⟨t₀, l, m, t₃, t₄, hts, hhead, hne, hv⟩ := json_in_write
    (fun w hw => named_marks jsonField_named (hlang w hw) (jsonField_recognised (hlang w hw))) hout hs.1
  rcases kept_or_found t₃ with ⟨x, rfl⟩ | ⟨x, w', r, rfl⟩
  · -- The field was in the text, where the scan looked for one and found none.
    have hx : (x.map Token.kept).flatMap (Token.write replacement) = x := by
      exact write_kept replacement x
    rw [hx] at hne hv
    rw [hts] at hscan
    have hbehind := hscan.behind
    have hword : jsonField.body.Lang ('"' :: (l ++ '"' :: (m ++ '"' :: (x ++ ['"'])))) :=
      lang_jsonField_iff.2 ⟨l, m, x, rfl, hhead, hne, hv⟩
    refine (Pattern.matchAt_eq_none_iff hpos).1 hbehind.eq_none _ (t₄.flatMap Token.text) ?_ ⟨hword, fun hb => by cases hb⟩
    simp only [List.flatMap_cons, List.flatMap_append, text_kept, Token.text]
    simp
  · have hlabel := jsonField_label (hlang w' (by rw [hts]; simp))
    have hclosing : closing (r ++ .kept '"' :: t₄) = ['"'] := by
      unfold closing
      rw [if_pos]
      simp
    have hsplit : jsonField.tokens beyond t =
        t₀ ++ (('"' :: (l ++ '"' :: (m ++ '"' :: x))).map Token.kept ++ .found w' :: (r ++ .kept '"' :: t₄)) := by
      rw [hts]
      simp
    obtain ⟨y, hy⟩ := mem_joins ('"' :: (l ++ '"' :: (m ++ '"' :: x))) w' (r ++ .kept '"' :: t₄) t₀ []
    rw [← hsplit, hclosing] at hy
    have hvalue : x ++ labelOf w' ≠ [] ∧ '"' ∉ x ++ labelOf w' := by
      refine ⟨by simp [List.length_pos_iff.1 hlabel.length.1], fun hm => ?_⟩
      rcases List.mem_append.1 hm with hm | hm
      · rw [List.flatMap_append, write_kept] at hv
        exact hv (List.mem_append_left _ hm)
      · exact hlabel.not_mem (by decide) hm
    have hword : jsonField.body.Lang ('"' :: (l ++ '"' :: (m ++ '"' :: (x ++ labelOf w' ++ ['"'])))) :=
      lang_jsonField_iff.2 ⟨l, m, _, rfl, hhead, hvalue.1, hvalue.2⟩
    exact hjoins _ hy y _ [] (by simp) ⟨hword, fun hb => by cases hb⟩

/-! ## Redacting -/

variable (beyond) in
/-- Every match the passes replace. -/
def met : List Credential → List Char → List (List Char)
  | [], _ => []
  | p :: ps, t => p.found beyond t ++ met ps (p.sub beyond t)

variable (beyond) in
/-- What the pass over JSON fields joins. -/
def joined (text : List Char) : List (List Char) :=
  joins [] (jsonField.tokens beyond ((TOKEN_PATTERNS.take 7).foldl (fun t p => p.sub beyond t) text))

variable (beyond) in
/-- The passes meet recognised matches only, and no pattern up to the JSON fields' finds anything in what those join. -/
def Settles (text : List Char) : Prop :=
  (∀ w ∈ met beyond TOKEN_PATTERNS text, Recognised w) ∧
    ∀ s ∈ joined beyond text, ∀ q ∈ TOKEN_PATTERNS.take 8, q.pattern.search (isWord beyond) s = false

instance (beyond : Char → Bool) (text : List Char) : Decidable (Settles beyond text) :=
  inferInstanceAs (Decidable (_ ∧ _))

theorem later_passes : ∀ {ps done : List Credential} {t : List Char}, (∀ p ∈ ps, p ∈ EXACT ++ [bearer]) →
    (∀ q ∈ done, q ∈ EARLIER) → (∀ w ∈ met beyond ps t, Recognised w) → (∀ q ∈ done, q.Free beyond t) →
      ∀ q ∈ done ++ ps, q.Free beyond (ps.foldl (fun t p => p.sub beyond t) t)
  | [], done, t, _, _, _, hfree => by
    rw [List.append_nil]
    exact hfree
  | p :: ps, done, t, hps, hdone, hrec, hfree => by
    have hp := hps p List.mem_cons_self
    have hmem : p ∈ EARLIER := List.mem_append_right [slack, slackApp] hp
    have hfound : ∀ w ∈ p.found beyond t, Recognised w := fun w hw => hrec w (List.mem_append_left _ hw)
    have hnext : ∀ q ∈ done ++ [p], q ∈ EARLIER ∧ q.Free beyond (p.sub beyond t) := by
      intro q hq
      rcases List.mem_append.1 hq with hq | hq
      · exact ⟨hdone q hq, later_free hp (hdone q hq) hfound (.inr (hfree q hq))⟩
      · rw [List.mem_singleton.1 hq]
        exact ⟨hmem, later_free hp hmem hfound (.inl rfl)⟩
    have hrest : ∀ w ∈ met beyond ps (p.sub beyond t), Recognised w := fun w hw => hrec w (List.mem_append_right _ hw)
    have h := later_passes (fun q hq => hps q (List.mem_cons_of_mem _ hq)) (fun q hq => (hnext q hq).1) hrest
      fun q hq => (hnext q hq).2
    rw [List.append_assoc] at h
    exact h

theorem met_append : ∀ (ps qs : List Credential) (t : List Char),
    met beyond (ps ++ qs) t = met beyond ps t ++ met beyond qs (ps.foldl (fun t p => p.sub beyond t) t)
  | [], _, _ => rfl
  | p :: ps, qs, t => by rw [List.cons_append, met, met, met_append ps qs, List.append_assoc]; rfl

/-- **The passes before the JSON fields'** leave no match of theirs. -/
theorem earlier_passes {ps : List Credential} (hps : ∀ p ∈ ps, p ∈ EXACT ++ [bearer])
    (hrec : ∀ w ∈ met beyond (slack :: slackApp :: ps) t, Recognised w) :
    ∀ q ∈ slack :: slackApp :: ps, q.Free beyond ((slack :: slackApp :: ps).foldl (fun t p => p.sub beyond t) t) := by
  rw [met, met] at hrec
  have hslack : ∀ w ∈ slack.found beyond t, Recognised w := fun w hw => hrec w (List.mem_append_left _ hw)
  have happ : ∀ w ∈ slackApp.found beyond (slack.sub beyond t), Recognised w := fun w hw =>
    hrec w (List.mem_append_right _ (List.mem_append_left _ hw))
  have hfirst : slack.Free beyond (slack.sub beyond t) := slack_free (.inl rfl) (.inl rfl) hslack (.inl rfl)
  have hsecond : ∀ q ∈ [slack, slackApp], q.Free beyond (slackApp.sub beyond (slack.sub beyond t)) := by
    intro q hq
    simp only [List.mem_cons, List.not_mem_nil, or_false] at hq
    rcases hq with rfl | rfl
    · exact slack_free (.inr rfl) (.inl rfl) happ (.inr hfirst)
    · exact slack_free (.inr rfl) (.inr rfl) happ (.inl rfl)
  rw [List.foldl_cons, List.foldl_cons]
  exact later_passes hps (fun q hq => List.mem_append_left _ hq)
    (fun w hw => hrec w (List.mem_append_right _ (List.mem_append_right _ hw))) hsecond

theorem TOKEN_PATTERNS_eq : TOKEN_PATTERNS = EARLIER ++ [jsonField, queryField] := rfl

theorem redact_eq (beyond : Char → Bool) (t : List Char) : redact beyond t =
    queryField.sub beyond (jsonField.sub beyond (EARLIER.foldl (fun t p => p.sub beyond t) t)) := by
  unfold redact
  rw [TOKEN_PATTERNS_eq, List.foldl_append, List.foldl_cons, List.foldl_cons, List.foldl_nil]

/-- **No pattern matches a settled text once redacted.** -/
theorem redact_free (h : Settles beyond t) : ∀ q ∈ TOKEN_PATTERNS, q.Free beyond (redact beyond t) := by
  obtain ⟨hmet, hjoined⟩ := h
  have hjoins : ∀ s ∈ joins [] (jsonField.tokens beyond (EARLIER.foldl (fun t p => p.sub beyond t) t)),
      ∀ q ∈ EARLIER ++ [jsonField], q.Free beyond s := fun s hs q hq => by
    have hmem : q ∈ TOKEN_PATTERNS := by
      rw [TOKEN_PATTERNS_eq]
      exact List.mem_append.2 ((List.mem_append.1 hq).imp_right fun h => by simp [List.mem_singleton.1 h])
    exact (Pattern.search_eq_false_iff (pos_of_pattern hmem)).1 (hjoined s hs q hq)
  rw [TOKEN_PATTERNS_eq, met_append] at hmet
  have hearlier : ∀ q ∈ EARLIER, q.Free beyond (EARLIER.foldl (fun t p => p.sub beyond t) t) :=
    earlier_passes (fun p hp => hp) fun w hw => hmet w (List.mem_append_left _ hw)
  rw [redact_eq]
  intro q hq
  rw [TOKEN_PATTERNS_eq] at hq
  rcases List.mem_append.1 hq with hq | hq
  · exact query_free (run_of_earlier hq) (.inr (json_free hq (hearlier q hq) fun s hs =>
      hjoins s hs q (List.mem_append_left _ hq)))
  · simp only [List.mem_cons, List.not_mem_nil, or_false] at hq
    rcases hq with rfl | rfl
    · exact query_json_free (json_json_free fun s hs => hjoins s hs _ (List.mem_append_right _ List.mem_cons_self))
    · exact query_free (List.mem_append_right _ List.mem_cons_self) (.inl rfl)

theorem passes_of_free (h : ∀ q ∈ TOKEN_PATTERNS, q.Free beyond t) : ∀ {ps : List Credential},
    (∀ p ∈ ps, p ∈ TOKEN_PATTERNS) → ps.foldl (fun t p => p.sub beyond t) t = t
  | [], _ => rfl
  | p :: ps, hps => by
    have hp := hps p List.mem_cons_self
    have hsub : p.sub beyond t = t := Pattern.rewrite_of_free (pos_of_pattern hp) replacement (h p hp)
    rw [List.foldl_cons, hsub]
    exact passes_of_free h fun q hq => hps q (List.mem_cons_of_mem _ hq)

theorem redact_of_free (h : ∀ q ∈ TOKEN_PATTERNS, q.Free beyond t) : redact beyond t = t :=
  passes_of_free h fun _ hq => hq

theorem joins_all_kept : ∀ (l k : List Char), joins k (l.map Token.kept) = []
  | [], _ => rfl
  | c :: l, k => joins_all_kept l (k ++ [c])

/-- **A text without a match settles.** -/
theorem settles_of_free (h : ∀ q ∈ TOKEN_PATTERNS, q.Free beyond t) : Settles beyond t := by
  have hkept : ∀ p ∈ TOKEN_PATTERNS, p.tokens beyond t = t.map Token.kept := fun p hp => tokens_free hp (h p hp)
  have hmet : ∀ ps : List Credential, (∀ p ∈ ps, p ∈ TOKEN_PATTERNS) → met beyond ps t = [] := by
    intro ps hps
    induction ps with
    | nil => rfl
    | cons p ps ih =>
      have hp := hps p List.mem_cons_self
      have hsub : [p].foldl (fun t p => p.sub beyond t) t = t :=
        passes_of_free h fun q hq => by rw [List.mem_singleton.1 hq]; exact hp
      have hfound : p.found beyond t = [] := by
        unfold Credential.found
        rw [hkept p hp, List.filterMap_map]
        exact List.filterMap_eq_nil_iff.2 fun _ _ => rfl
      rw [List.foldl_cons, List.foldl_nil] at hsub
      rw [met, hfound, hsub, List.nil_append]
      exact ih fun q hq => hps q (List.mem_cons_of_mem _ hq)
  have hjoined : joined beyond t = [] := by
    have hfirst : (TOKEN_PATTERNS.take 7).foldl (fun t p => p.sub beyond t) t = t :=
      passes_of_free h fun q hq => List.mem_of_mem_take hq
    unfold joined
    rw [hfirst, hkept jsonField (mem_of_named jsonField_named)]
    exact joins_all_kept t []
  refine ⟨fun w hw => ?_, fun s hs => ?_⟩
  · rw [hmet TOKEN_PATTERNS fun _ hq => hq] at hw
    exact absurd hw List.not_mem_nil
  · rw [hjoined] at hs
    exact absurd hs List.not_mem_nil

/-- **What redaction removes**: a match's replacement is the same for every value, and made of the label alone, exactly
where the label is a marker or the separator has a sign; and a settled text redacted stays as it is. -/
theorem redaction_exact (beyond : Char → Bool) :
    (∀ p ∈ TOKEN_PATTERNS, ∀ l s, p.label.Lang l → p.separator.Lang s →
      ((∀ v v' raw raw', p.Reads l s v raw → p.Reads l s v' raw' → replacement raw = replacement raw') ↔
        Recognised (l ++ s)) ∧
      (Recognised (l ++ s) → ∀ v raw, p.Reads l s v raw → replacement raw = shown l)) ∧
    ∀ text, Settles beyond text → redact beyond (redact beyond text) = redact beyond text :=
  ⟨fun _ hp _ _ hl hs => ⟨valueFree_iff hp hl hs, fun hr _ _ h => replacement_shown hp h hr⟩,
    fun _ h => redact_of_free (redact_free h)⟩

/-- Of `bearer`, a marker, a JSON field and a query field, a text that settles. -/
theorem redaction_exact_sample :
    Settles (fun _ => false) "Bearer: abcdefghijkl xoxb-12345678 \"token\" : \"v\" id_token=abcdef".toList ∧
      redact (fun _ => false) (redact (fun _ => false)
        "Bearer: abcdefghijkl xoxb-12345678 \"token\" : \"v\" id_token=abcdef".toList) =
      redact (fun _ => false) "Bearer: abcdefghijkl xoxb-12345678 \"token\" : \"v\" id_token=abcdef".toList := by
  have hsettles : Settles (fun _ => false) "Bearer: abcdefghijkl xoxb-12345678 \"token\" : \"v\" id_token=abcdef".toList := by
    decide +kernel
  exact ⟨hsettles, (redaction_exact fun _ => false).2 _ hsettles⟩

/-- **A bearer's value stays** where a space alone stands before it, and the text does not settle. -/
theorem bearer_leaks :
    let text := "Bearer abcdefghijkl".toList
    bearer.Reads "Bearer".toList " ".toList "abcdefghijkl".toList text ∧ replacement text = text ++ '=' :: REDACTED ∧
      redact (fun _ => false) text = text ++ '=' :: REDACTED ∧
      redact (fun _ => false) (redact (fun _ => false) text) ≠ redact (fun _ => false) text := by
  refine ⟨⟨?_, ?_, ?_, [], [], rfl, rfl, rfl⟩, by decide +kernel, by decide +kernel, by decide +kernel⟩
  · exact Regex.lang_comap.2 (lang_oneOf.2 ⟨"bearer", by simp, by decide⟩)
  · exact ⟨by decide, by decide⟩
  · exact ⟨by decide, by decide⟩

end Redaction
end SafeSend
