import Mathlib.Data.List.Induction
import SafeSend.ApiKeys
import SafeSend.Redaction.Marks
/-!
# Minted keys in a text

A key is covered where the key pattern's class takes it whole, whatever stands around it; the patterns before that one
either leave it alone or take it whole as well.  Two things keep it standing: a `-` in the key, at which the class ends,
and a Slack token right before it, which goes on into the key's `sk` and takes the marker away.
-/
namespace SafeSend
namespace Redaction

open Lib

variable {beyond : Char → Bool} {p q : Credential} {t x y : List Letter} {ts ts₁ ts₂ : List (Token Letter)}

/-- The patterns before the keys' and those after. -/
def BEFORE : List Credential := [slack, slackApp, googleAccess, googleRefresh, googleSecret]
def AFTER : List Credential := [bearer, jsonField, queryField]

theorem TOKEN_PATTERNS_around : TOKEN_PATTERNS = BEFORE ++ apiKey :: AFTER := rfl

theorem pattern_of_before (hq : q ∈ BEFORE) : q ∈ TOKEN_PATTERNS := List.mem_append_left (apiKey :: AFTER) hq

theorem pattern_of_after (hq : q ∈ AFTER) : q ∈ TOKEN_PATTERNS :=
  List.mem_append_right BEFORE (List.mem_cons_of_mem apiKey hq)

theorem first_others (hq : q ∈ BEFORE ++ AFTER) : ∀ d ∈ ['s', '_', '-'], q.body.first d = false := by
  have hall : ∀ q ∈ BEFORE ++ AFTER, ∀ d ∈ ['s', '_', '-'], q.body.first d = false := by decide
  exact hall q hq

theorem first_dash (hp : p ∈ TOKEN_PATTERNS) : p.body.first '-' = false := by
  have hall : ∀ p ∈ TOKEN_PATTERNS, p.body.first '-' = false := by decide
  exact hall p hp

/-! ## Runs -/

/-- A run and the character behind it, at which none of the patterns begins. -/
structure Solid (x : List Letter) (c : Letter) : Prop where
  run : ∀ d ∈ x, alnumOr ['_'] d.1 = true
  next : c.1 = '-' ∨ alnumOr ['_'] c.1 = true
  head : ∀ d, (x ++ [c]).head? = some d → d.1 ∈ ['s', '_', '-']

theorem Solid.first {c : Letter} (h : Solid x c) (hq : q ∈ BEFORE ++ AFTER) :
    ∀ d, (x ++ [c]).head? = some d → q.body.first d.1 = false := fun d hd => first_others hq d.1 (h.head d hd)

/-- **What is solid is kept** by a pass whose pattern does not begin with what it begins with. -/
theorem Solid.kept {c : Letter} {prev : Option Letter} (h : Solid x c) (hp : p ∈ TOKEN_PATTERNS)
    (hfirst : ∀ d, (x ++ [c]).head? = some d → p.body.first d.1 = false)
    (hscan : Scanned (reading Prod.fst (p.pattern.matchAt (isWord beyond))) prev (x ++ c :: y) ts) :
    ∃ ts', ts = (x ++ [c]).map .kept ++ ts' ∧ ts'.flatMap Token.text = y := by
  rw [List.append_cons] at hscan
  obtain ⟨ts', rfl, hrest⟩ := hscan.kept_through fun a b hx hb => by
    obtain ⟨b, d, rfl⟩ := (List.eq_nil_or_concat b).resolve_left hb
    rw [List.concat_eq_append, ← List.append_assoc] at hx
    obtain ⟨rfl, hd⟩ := List.append_inj' hx rfl
    cases hd
    rw [List.concat_eq_append, List.append_assoc]
    cases b with
    | nil =>
      refine no_match hp ?_
      rw [List.append_nil] at h hfirst
      rcases List.eq_nil_or_concat a with rfl | ⟨a, e, rfl⟩
      · exact .inl (hfirst c rfl)
      · rcases h.next with hc | hc
        · exact .inl (by rw [hc]; exact first_dash hp)
        · rw [List.concat_eq_append, List.getLast?_concat]
          exact .inr ⟨isWord_of_run (h.run e (by simp)), hc⟩
    | cons d b =>
      refine no_match hp ?_
      rcases List.eq_nil_or_concat a with rfl | ⟨a, e, rfl⟩
      · exact .inl (hfirst d rfl)
      · rw [List.concat_eq_append, List.getLast?_concat]
        exact .inr ⟨isWord_of_run (h.run e (by simp)), h.run d (by simp)⟩
  exact ⟨ts', rfl, hrest.text⟩

/-- **A match that reaches a run of its class takes it whole.** -/
theorem takes_run (hp : p ∈ TOKEN_PATTERNS) {cls : Char → Bool} (hgreedy : Regex.Greedy cls p.body) {v w : List Letter}
    (h : p.markedTokens beyond t = ts₁ ++ .found w :: ts₂) (htext : v ++ ts₂.flatMap Token.text = x ++ y)
    (hx : ∀ c ∈ x, cls c.1 = true) : ∃ z, v = x ++ z ∧ y = z ++ ts₂.flatMap Token.text := by
  have hsated : Regex.Sated cls ((ts₂.flatMap Token.text).map Prod.fst) := hgreedy _ _ (found_marked hp h).2
  rcases List.append_eq_append_iff.1 htext with ⟨r, rfl, hrest⟩ | ⟨z, hv, hy⟩
  · cases r with
    | nil => exact ⟨[], by simp, hrest.symm⟩
    | cons d r =>
      rw [hrest] at hsated
      have hd := hsated d.1 _ rfl
      rw [hx d (by simp)] at hd
      cases hd
  · exact ⟨z, hv, hy⟩

/-- Nothing right before it is a word character. -/
def Apart (beyond : Char → Bool) (l : List Letter) : Prop := ∀ c ∈ l.getLast?, isWord beyond c.1 = false

theorem apart_write (h : Apart beyond (ts.flatMap Token.text)) : Apart beyond (ts.flatMap (Token.write replaced)) :=
  last_write (fun w _ => ⟨_, last_replaced w, rfl⟩) h

/-- A pass keeps what is solid, or finds a word that begins before it and reaches it. -/
theorem Solid.cut {c : Letter} (h : Solid x c) (hp : p ∈ TOKEN_PATTERNS)
    (hfirst : ∀ d, (x ++ [c]).head? = some d → p.body.first d.1 = false) (beyond : Char → Bool) {l r : List Letter}
    (ht : t = l ++ (x ++ c :: r)) :
    (∃ ts₁ ts₂, p.markedTokens beyond t = ts₁ ++ ((x ++ [c]).map .kept ++ ts₂) ∧ ts₁.flatMap Token.text = l ∧
      ts₂.flatMap Token.text = r) ∨
    ∃ ts₁ u v ts₂, p.markedTokens beyond t = ts₁ ++ .found (u ++ v) :: ts₂ ∧ u ≠ [] ∧ v ≠ [] ∧
      ts₁.flatMap Token.text ++ u = l ∧ v ++ ts₂.flatMap Token.text = x ++ c :: r := by
  have hscan := scanned_marked hp beyond t
  rcases cut_text (hscan.text.trans ht) with ⟨ts₁, ts₂, hts, hl, hr⟩ | hcross
  · rw [hts] at hscan
    have hbehind := hscan.behind
    rw [hr] at hbehind
    obtain ⟨ts₃, rfl, hrest⟩ := h.kept hp hfirst hbehind
    exact .inl ⟨ts₁, ts₃, hts, hl, hrest⟩
  · exact .inr hcross

/-! ## Around a key without `-` -/

/-- A key whose characters are all of the key pattern's class. -/
structure KeyRun (k : List Letter) : Prop where
  opens : ∃ b, k = plain ApiKeys.PREFIX ++ b ∧ 8 ≤ b.length
  run : ∀ c ∈ k, alnumOr ['_'] c.1 = true

theorem KeyRun.solid {k : List Letter} (h : KeyRun k) : ∃ x c, k = x ++ [c] ∧ Solid x c := by
  obtain ⟨b, hk, hlength⟩ := h.opens
  rcases List.eq_nil_or_concat k with rfl | ⟨x, c, rfl⟩
  · cases hk
  · rw [List.concat_eq_append] at h hk ⊢
    refine ⟨x, c, rfl, fun d hd => h.run d (by simp [hd]), .inr (h.run c (by simp)), fun d hd => ?_⟩
    rw [hk] at hd
    cases hd
    decide

/-- A text with the key in it, or with no mark. -/
def Carried (beyond : Char → Bool) (k t : List Letter) : Prop :=
  Clear t ∨ ∃ l r, t = l ++ (k ++ r) ∧ Clear l ∧ Clear r ∧ Apart beyond l

theorem greedy_exact (hp : p ∈ EXACT) :
    ∃ cls, Regex.Greedy cls p.body ∧ ∀ c, alnumOr ['_'] c = true → cls c = true := by
  have hmono : ∀ {others : List Char} {c : Char}, '_' ∈ others → alnumOr ['_'] c = true → alnumOr others c = true := by
    intro others c hmem h
    unfold alnumOr at h ⊢
    rw [Bool.or_eq_true] at h ⊢
    refine h.imp_right fun hc => ?_
    rw [List.mem_singleton.1 (List.contains_iff_mem.1 hc)]
    exact List.contains_iff_mem.2 hmem
  simp only [EXACT, List.mem_cons, List.not_mem_nil, or_false] at hp
  rcases hp with rfl | rfl | rfl | rfl
  · exact ⟨_, greedy_value _ _ _ _ 10, fun c => hmono (by simp)⟩
  · exact ⟨_, greedy_value _ _ _ _ 10, fun c => hmono (by simp)⟩
  · exact ⟨_, greedy_value _ _ _ _ 10, fun c => hmono (by simp)⟩
  · exact ⟨_, greedy_value _ _ _ _ 8, fun c => hmono (by simp)⟩

theorem Clear.append {l r : List Letter} (hl : Clear l) (hr : Clear r) : Clear (l ++ r) := by
  intro c hc
  rcases List.mem_append.1 hc with hc | hc
  · exact hl c hc
  · exact hr c hc

/-- A word that takes the key whole takes its marks away. -/
theorem clear_of_taken {w l r : List Letter} (hts : ts = ts₁ ++ .found w :: ts₂) (hl : Clear l) (hr : Clear r)
    (hbefore : ∃ u, l = ts₁.flatMap Token.text ++ u) (hafter : ∃ z, r = z ++ ts₂.flatMap Token.text) :
    Clear (ts.flatMap (Token.write replaced)) := by
  obtain ⟨u, rfl⟩ := hbefore
  obtain ⟨z, rfl⟩ := hafter
  have hfirst : Clear (ts₁.flatMap (Token.write replaced)) := clear_write fun c hc => hl c (List.mem_append_left _ hc)
  have hlast : Clear (ts₂.flatMap (Token.write replaced)) := clear_write fun c hc => hr c (List.mem_append_right _ hc)
  rw [hts, List.flatMap_append, List.flatMap_cons]
  exact hfirst.append ((clear_plain _).append hlast)

/-- **A Google pass** takes the key whole or leaves it alone. -/
theorem carried_google {k : List Letter} (hk : KeyRun k) (hq : q ∈ [googleAccess, googleRefresh, googleSecret])
    (h : Carried beyond k t) : Carried beyond k (q.subMarked beyond t) := by
  have hbefore : q ∈ BEFORE := List.mem_append_right [slack, slackApp] hq
  rcases h with h | ⟨l, r, ht, hl, hr, hapart⟩
  · exact .inl (subMarked_clear (pattern_of_before hbefore) h)
  obtain ⟨x, c, rfl, hsolid⟩ := hk.solid
  rw [List.append_assoc, List.singleton_append] at ht
  have hfirst := hsolid.first (List.mem_append_left AFTER hbefore)
  rcases hsolid.cut (pattern_of_before hbefore) hfirst beyond ht with
    ⟨ts₁, ts₂, hts, rfl, rfl⟩ | ⟨ts₁, u, v, ts₂, hts, -, -, rfl, hv⟩
  · refine .inr ⟨ts₁.flatMap (Token.write replaced), ts₂.flatMap (Token.write replaced), ?_, clear_write hl, clear_write hr,
      apart_write hapart⟩
    unfold Credential.subMarked
    rw [hts, List.flatMap_append, List.flatMap_append, write_kept]
  · obtain ⟨cls, hgreedy, hcls⟩ := greedy_exact (List.mem_append_left [apiKey] hq)
    rw [List.append_cons] at hv
    obtain ⟨z, -, rfl⟩ := takes_run (x := x ++ [c]) (pattern_of_before hbefore) hgreedy hts hv fun d hd => hcls _ (hk.run d hd)
    exact .inl (clear_of_taken hts hl hr ⟨u, rfl⟩ ⟨z, rfl⟩)

theorem lang_apiKey {w : List Char} (h : apiKey.body.Lang w) : ∀ c ∈ w, alnumOr ['_'] c = true := by
  obtain ⟨l, s, v, hparts⟩ := Credential.lang_body_iff.1 h
  obtain ⟨-, rfl⟩ := hparts.of_bare rfl rfl rfl
  have hlabel : ∀ c ∈ "sk_live_".toList, alnumOr ['_'] c = true := by decide
  intro c hc
  rcases List.mem_append.1 hc with hc | hc
  · rw [lang_lit.1 hparts.1] at hc
    exact hlabel c hc
  · exact hparts.2.2.1.2 c hc

theorem KeyRun.starts {k : List Letter} (hk : KeyRun k) {prev : Option Char} (hprev : prev.any (isWord beyond) = false) :
    apiKey.pattern.Starts (isWord beyond) prev (k.map Prod.fst) := by
  obtain ⟨b, rfl, hlength⟩ := hk.opens
  rw [List.map_append, plain_fst]
  refine ⟨Credential.lang_body_iff.2 ⟨ApiKeys.PREFIX, [], b.map Prod.fst, lang_lit.2 rfl, rfl, ⟨?_, ?_⟩, [], [], rfl, rfl, ?_⟩,
    fun _ => ?_⟩
  · rwa [List.length_map]
  · intro c hc
    obtain ⟨d, hd, rfl⟩ := List.mem_map.1 hc
    exact hk.run d (List.mem_append_right _ hd)
  · simp
  · unfold atBoundary
    rw [hprev]
    rfl

/-- **The keys' pass** leaves no mark. -/
theorem clear_apiKey {k : List Letter} (hk : KeyRun k) (h : Carried beyond k t) : Clear (apiKey.subMarked beyond t) := by
  have hmem : apiKey ∈ TOKEN_PATTERNS := List.mem_append_right BEFORE List.mem_cons_self
  obtain ⟨cls, hgreedy, hcls⟩ := greedy_exact (p := apiKey) (by simp [EXACT])
  have hrun : ∀ d ∈ k, cls d.1 = true := fun d hd => hcls _ (hk.run d hd)
  rcases h with h | ⟨l, r, ht, hl, hr, hapart⟩
  · exact subMarked_clear hmem h
  have hscan := scanned_marked hmem beyond t
  rcases cut_text (hscan.text.trans ht) with ⟨ts₁, ts₂, hts, rfl, hright⟩ | ⟨ts₁, u, v, ts₂, hts, hu, -, rfl, hv⟩
  · rw [hts] at hscan
    have hbehind := hscan.behind
    rw [hright, Option.or_none] at hbehind
    have hprev : ((ts₁.flatMap Token.text).getLast?.map Prod.fst).any (isWord beyond) = false := by
      cases hlast : (ts₁.flatMap Token.text).getLast? with
      | none => rfl
      | some c => exact hapart c (by rw [hlast]; rfl)
    cases ts₂ with
    | nil =>
      obtain ⟨b, rfl, -⟩ := hk.opens
      cases hright
    | cons tok ts₂ =>
      cases tok with
      | kept c =>
        have hnone : apiKey.pattern.matchAt (isWord beyond) _ ((k ++ r).map Prod.fst) = none := hbehind.eq_none
        rw [List.map_append, Pattern.matchAt_eq_none_iff (pos_of_pattern hmem)] at hnone
        exact absurd (hk.starts hprev) (hnone _ _ rfl)
      | found w =>
        rw [List.flatMap_cons, Token.text] at hright
        obtain ⟨z, -, rfl⟩ := takes_run hmem hgreedy hts hright hrun
        exact clear_of_taken hts hl hr ⟨[], (List.append_nil _).symm⟩ ⟨z, rfl⟩
  · -- What is found has word characters only, and there is none right before the key.
    obtain ⟨u, c, rfl⟩ := (List.eq_nil_or_concat u).resolve_left hu
    have hword := lang_apiKey (found_marked hmem hts).1.1 c.1 (by simp)
    have hnot := hapart c (by simp)
    rw [isWord_of_run hword] at hnot
    cases hnot

/-! ## Behind a Slack token -/

def SLACK : List Credential := [slack, slackApp]

/-- A token that ends the text goes on into the `sk` of a key behind it. -/
def RunsOn (beyond : Char → Bool) (q : Credential) (l : List Char) : Prop :=
  ∃ a u, l = a ++ u ∧ q.pattern.Starts (isWord beyond) a.getLast? (u ++ "sk".toList)

theorem before_of_slack (hq : q ∈ SLACK) : q ∈ BEFORE :=
  List.mem_append_left [googleAccess, googleRefresh, googleSecret] hq

theorem class_of_label (hq : q ∈ SLACK) {l : List Char} (h : q.label.Lang l) : ∀ c ∈ l, alnumOr ['-'] (fold c) = true := by
  have hlit : ∀ {s : String} {l : List Char}, (∀ d ∈ s.toList, alnumOr ['-'] d = true) → ((lit s).comap fold).Lang l →
      ∀ c ∈ l, alnumOr ['-'] (fold c) = true := by
    intro s l hs hl c hc
    refine hs _ ?_
    rw [← lang_fold_lit.1 hl]
    exact List.mem_map_of_mem hc
  simp only [SLACK, List.mem_cons, List.not_mem_nil, or_false] at hq
  rcases hq with rfl | rfl
  · obtain ⟨u, _, rfl, hu, _, v, rfl, ⟨d, rfl, hd⟩, hv⟩ := h
    intro c hc
    rcases List.mem_append.1 hc with hc | hc
    · exact hlit (by decide) hu c hc
    · rcases List.mem_append.1 hc with hc | hc
      · have hall : ∀ d ∈ "baprse".toList, alnumOr ['-'] d = true := by decide
        rw [List.mem_singleton.1 hc]
        exact hall _ (List.contains_iff_mem.1 hd)
      · exact hlit (by decide) hv c hc
  · exact hlit (by decide) h

theorem slack_class (hq : q ∈ SLACK) :
    Regex.Greedy (alnumOr ['-'] ∘ fold) q.body ∧ ∀ w, q.body.Lang w → ∀ c ∈ w, alnumOr ['-'] (fold c) = true := by
  have hlabel := fun l => class_of_label (l := l) hq
  simp only [SLACK, List.mem_cons, List.not_mem_nil, or_false] at hq
  rcases hq with rfl | rfl
  · refine ⟨greedy_value _ _ _ _ 8, fun w hw c hc => ?_⟩
    obtain ⟨l, s, v, hparts⟩ := Credential.lang_body_iff.1 hw
    obtain ⟨-, rfl⟩ := hparts.of_bare rfl rfl rfl
    exact (List.mem_append.1 hc).elim (hlabel l hparts.1 c) (hparts.2.2.1.2 c)
  · refine ⟨greedy_value _ _ _ _ 8, fun w hw c hc => ?_⟩
    obtain ⟨l, s, v, hparts⟩ := Credential.lang_body_iff.1 hw
    obtain ⟨-, rfl⟩ := hparts.of_bare rfl rfl rfl
    exact (List.mem_append.1 hc).elim (hlabel l hparts.1 c) (hparts.2.2.1.2 c)

/-- A match of Slack's begins with a word character, so behind none. -/
theorem starts_slack (hq : q ∈ SLACK) {prev : Option Char} {w : List Char} :
    q.pattern.Starts (isWord beyond) prev w ↔ q.body.Lang w ∧ prev.any (isWord beyond) = false := by
  have hbounded : q.pattern.bounded = true := by
    simp only [SLACK, List.mem_cons, List.not_mem_nil, or_false] at hq
    rcases hq with rfl | rfl <;> rfl
  have hhead : q.body.Lang w → w.head?.any (isWord beyond) = true := by
    intro hw
    cases w with
    | nil =>
      have hlength := hw.minLength_le
      have hpos := pos_of_pattern (pattern_of_before (before_of_slack hq))
      exact absurd hlength (Nat.not_le_of_lt hpos)
    | cons c w =>
      have hc := alphanum_of_first (List.mem_append_left (EXACT ++ [bearer]) hq) hw.first
      exact isWord_of_run (alnumOr_of_alphanum hc)
  unfold Pattern.Starts atBoundary
  constructor
  · rintro ⟨hw, hb⟩
    have hboundary := hb hbounded
    rw [hhead hw, bne_iff_ne] at hboundary
    exact ⟨hw, Bool.eq_false_iff.2 hboundary⟩
  · rintro ⟨hw, hprev⟩
    exact ⟨hw, fun _ => by rw [hhead hw, hprev]; rfl⟩

section Seam

variable {rest : List Letter}

/-- Right before what goes on with their class, a Slack pass keeps what it has not found to its end. -/
theorem suffix_kept (hq : q ∈ SLACK) (hts : q.markedTokens beyond t = ts₁ ++ ts₂)
    (hright : ts₂.flatMap Token.text = plain "sk".toList ++ rest) {a u : List Letter}
    (hleft : ts₁.flatMap Token.text = a ++ u) (hu : ∀ c ∈ u, alnumOr ['-'] (fold c.1) = true) :
    ∃ ts₀, ts₁ = ts₀ ++ u.map .kept ∧ ts₀.flatMap Token.text = a := by
  have hmem := pattern_of_before (before_of_slack hq)
  have hclass : ∀ c ∈ u ++ plain "sk".toList, alnumOr ['-'] (fold c.1) = true := by
    intro c hc
    rcases List.mem_append.1 hc with hc | hc
    · exact hu c hc
    · have hall : ∀ c ∈ plain "sk".toList, alnumOr ['-'] (fold c.1) = true := by decide
      exact hall c hc
  rcases cut_text hleft with ⟨ts₀, ts₃, rfl, ha, htail⟩ | ⟨ts₀, w₁, w₂, ts₃, rfl, -, hw, -, htail⟩
  · rcases kept_or_found ts₃ with ⟨z, rfl⟩ | ⟨z, w, r, rfl⟩
    · rw [text_kept] at htail
      exact ⟨ts₀, by rw [htail], ha⟩
    · -- A word found in between would have gone on to the end, and further.
      have hsplit : q.markedTokens beyond t = (ts₀ ++ z.map .kept) ++ .found w :: (r ++ ts₂) := by simp [hts]
      rw [List.flatMap_append, text_kept, List.flatMap_cons, Token.text] at htail
      have htext : w ++ (r ++ ts₂).flatMap Token.text = (w ++ r.flatMap Token.text ++ plain "sk".toList) ++ rest := by
        rw [List.flatMap_append, hright]
        simp
      obtain ⟨y, hy, -⟩ := takes_run hmem (slack_class hq).1 hsplit htext fun c hc => hclass c (by
        rw [← htail]
        simp only [List.mem_append] at hc ⊢
        tauto)
      have hlength := congrArg List.length hy
      simp [plain] at hlength
  · have hsplit : q.markedTokens beyond t = ts₀ ++ .found (w₁ ++ w₂) :: (ts₃ ++ ts₂) := by simp [hts]
    have htext : w₂ ++ (ts₃ ++ ts₂).flatMap Token.text = (u ++ plain "sk".toList) ++ rest := by
      rw [List.flatMap_append, hright, ← List.append_assoc, htail, List.append_assoc]
    obtain ⟨y, hy, -⟩ := takes_run hmem (slack_class hq).1 hsplit htext hclass
    have hlength := congrArg List.length hy
    rw [← htail] at hlength
    simp only [List.length_append, plain, List.length_map] at hlength
    have htwo : "sk".toList.length = 2 := rfl
    omega

/-- What a pass wrote last, without the sign that ends a replacement, it kept. -/
theorem kept_suffix {u : List Letter} : ∀ {ts : List (Token Letter)} {a : List Letter},
    ts.flatMap (Token.write replaced) = a ++ u → (∀ c ∈ u, c.1 ≠ '»') →
      ∃ ts₀, ts = ts₀ ++ u.map .kept ∧ ts₀.flatMap (Token.write replaced) = a := by
  induction u using List.reverseRecOn with
  | nil => exact fun {ts a} h _ => ⟨ts, by simp, by simpa using h⟩
  | append_singleton u d ih =>
    intro ts a h hu
    have hlast : (ts.flatMap (Token.write replaced)).getLast? = some d := by
      rw [h, ← List.append_assoc, List.getLast?_concat]
    rcases List.eq_nil_or_concat ts with rfl | ⟨ts, tok, rfl⟩
    · cases hlast
    · rw [List.concat_eq_append, List.flatMap_append, List.flatMap_singleton] at h hlast
      cases tok with
      | kept c =>
        rw [← List.append_assoc] at h
        obtain ⟨hinit, hc⟩ := List.append_inj' h rfl
        cases hc
        obtain ⟨ts₀, rfl, ha⟩ := ih hinit fun c hc => hu c (List.mem_append_left _ hc)
        exact ⟨ts₀, by simp, ha⟩
      | found w =>
        rw [Token.write, List.getLast?_append, last_replaced] at hlast
        cases hlast
        exact absurd rfl (hu _ (List.mem_append_right _ List.mem_cons_self))

/-- What a pass finds across the seam ends with the `sk`. -/
theorem crosses (hq : q ∈ SLACK) {u v : List Letter} (hts : q.markedTokens beyond t = ts₁ ++ .found (u ++ v) :: ts₂)
    (htext : v ++ ts₂.flatMap Token.text = plain "sk".toList ++ ('_', false) :: rest) :
    ts₂.flatMap Token.text = ('_', false) :: rest ∧ RunsOn beyond q ((ts₁.flatMap Token.text ++ u).map Prod.fst) := by
  have hmem := pattern_of_before (before_of_slack hq)
  have hsk : ∀ c ∈ plain "sk".toList, alnumOr ['-'] (fold c.1) = true := by decide
  have hstarts := (found_marked hmem hts).1
  obtain ⟨z, rfl, hrest⟩ := takes_run hmem (slack_class hq).1 hts htext hsk
  cases z with
  | nil =>
    rw [List.append_nil, List.map_append, plain_fst] at hstarts
    refine ⟨hrest.symm, (ts₁.flatMap Token.text).map Prod.fst, u.map Prod.fst, List.map_append, ?_⟩
    rw [List.getLast?_map]
    exact hstarts
  | cons d z =>
    obtain ⟨rfl, -⟩ := List.cons.inj hrest
    have hclass := (slack_class hq).2 _ hstarts.1 '_' (by simp)
    cases hclass

/-- Cut at the seam, the pass found no token that goes on into the `sk`. -/
theorem not_runsOn (hq : q ∈ SLACK) (hts : q.markedTokens beyond t = ts₁ ++ ts₂)
    (hright : ts₂.flatMap Token.text = plain "sk".toList ++ rest) :
    ¬ RunsOn beyond q ((ts₁.flatMap Token.text).map Prod.fst) := by
  rintro ⟨a, u, hl, hstarts⟩
  have hmem := pattern_of_before (before_of_slack hq)
  obtain ⟨a, u, hleft, rfl, rfl⟩ := List.map_eq_append_iff.1 hl
  obtain ⟨ts₀, rfl, rfl⟩ := suffix_kept hq hts hright hleft fun c hc =>
    (slack_class hq).2 _ hstarts.1 c.1 (List.mem_append_left _ (List.mem_map_of_mem hc))
  cases u with
  | nil =>
    have hlength := hstarts.1.minLength_le
    have hlong := (run_words (run_of_earlier (List.mem_append_left (EXACT ++ [bearer]) hq))).1
    exact absurd (Nat.le_trans hlong hlength) (by decide)
  | cons c u =>
    have hscan := scanned_marked hmem beyond t
    rw [hts, List.append_assoc] at hscan
    have hbehind := hscan.behind
    rw [List.map_cons, List.cons_append] at hbehind
    have hnone := hbehind.eq_none
    unfold reading at hnone
    rw [Pattern.matchAt_eq_none_iff (pos_of_pattern hmem), Option.or_none, ← List.getLast?_map] at hnone
    refine hnone _ (rest.map Prod.fst) ?_ hstarts
    rw [← List.cons_append, ← List.map_cons (f := Token.kept), List.flatMap_append, text_kept, hright, List.map_append,
      List.map_append, plain_fst, List.append_assoc]

/-- **What runs on into the key** is the same in what a pass wrote before it as in what it read. -/
theorem runsOn_write (hq : q ∈ SLACK) (hts : q.markedTokens beyond t = ts₁ ++ ts₂)
    (hright : ts₂.flatMap Token.text = plain "sk".toList ++ rest) {q' : Credential} (hq' : q' ∈ SLACK) :
    RunsOn beyond q' ((ts₁.flatMap (Token.write replaced)).map Prod.fst) ↔
      RunsOn beyond q' ((ts₁.flatMap Token.text).map Prod.fst) := by
  have hmem := pattern_of_before (before_of_slack hq)
  constructor
  · rintro ⟨a, u, hl, hstarts⟩
    obtain ⟨hlang, hprev⟩ := (starts_slack hq').1 hstarts
    obtain ⟨a, u, hleft, rfl, rfl⟩ := List.map_eq_append_iff.1 hl
    have hclass : ∀ c ∈ u, alnumOr ['-'] (fold c.1) = true := fun c hc =>
      (slack_class hq').2 _ hlang c.1 (List.mem_append_left _ (List.mem_map_of_mem hc))
    obtain ⟨ts₀, rfl, rfl⟩ := kept_suffix hleft fun c hc he => by
      have h := hclass c hc
      rw [he] at h
      cases h
    refine ⟨(ts₀.flatMap Token.text).map Prod.fst, u.map Prod.fst, ?_, (starts_slack hq').2 ⟨hlang, ?_⟩⟩
    · rw [List.flatMap_append, text_kept, List.map_append]
    · rcases List.eq_nil_or_concat ts₀ with rfl | ⟨ts₀, tok, rfl⟩
      · rfl
      · rw [List.concat_eq_append, List.flatMap_append, List.flatMap_singleton] at hprev ⊢
        cases tok with
        | kept c => simpa [Token.text, Token.write] using hprev
        | found w =>
          -- A found word would have gone on into the `sk`.
          have hsplit : q.markedTokens beyond t = ts₀ ++ .found w :: (u.map .kept ++ ts₂) := by simp [hts]
          have htext : [] ++ (u.map Token.kept ++ ts₂).flatMap Token.text = (u ++ plain "sk".toList) ++ rest := by
            rw [List.flatMap_append, text_kept, hright, List.nil_append, List.append_assoc]
          obtain ⟨z, hz, -⟩ := takes_run hmem (slack_class hq).1 hsplit htext fun c hc => by
            rcases List.mem_append.1 hc with hc | hc
            · exact hclass c hc
            · have hall : ∀ c ∈ plain "sk".toList, alnumOr ['-'] (fold c.1) = true := by decide
              exact hall c hc
          simp [plain] at hz
  · rintro ⟨a, u, hl, hstarts⟩
    obtain ⟨hlang, hprev⟩ := (starts_slack hq').1 hstarts
    obtain ⟨a, u, hleft, rfl, rfl⟩ := List.map_eq_append_iff.1 hl
    obtain ⟨ts₀, rfl, rfl⟩ := suffix_kept hq hts hright hleft fun c hc =>
      (slack_class hq').2 _ hlang c.1 (List.mem_append_left _ (List.mem_map_of_mem hc))
    refine ⟨(ts₀.flatMap (Token.write replaced)).map Prod.fst, u.map Prod.fst, ?_, (starts_slack hq').2 ⟨hlang, ?_⟩⟩
    · rw [List.flatMap_append, write_kept, List.map_append]
    · have hapart : Apart beyond (ts₀.flatMap Token.text) := by
        intro c hc
        rw [List.getLast?_map, hc] at hprev
        exact hprev
      rw [List.getLast?_map]
      cases hlast : (ts₀.flatMap (Token.write replaced)).getLast? with
      | none => rfl
      | some c => exact apart_write hapart c hlast

/-- **A Slack pass** finds a word that ends with the `sk` where a token runs on, and keeps what is solid elsewhere. -/
theorem Solid.slack {c : Letter} (h : Solid x c) (hq : q ∈ SLACK) (beyond : Char → Bool) {l r : List Letter}
    (ht : t = l ++ (x ++ c :: r))
    (hsk : x ++ c :: r = plain "sk".toList ++ ('_', false) :: rest) :
    (RunsOn beyond q (l.map Prod.fst) ∧ ∃ ts₁ w ts₂, q.markedTokens beyond t = ts₁ ++ .found w :: ts₂ ∧
      ts₂.flatMap Token.text = ('_', false) :: rest) ∨
    (¬ RunsOn beyond q (l.map Prod.fst) ∧ ∃ ts₁ ts₂, q.markedTokens beyond t = ts₁ ++ ((x ++ [c]).map .kept ++ ts₂) ∧
      ts₁.flatMap Token.text = l ∧ ts₂.flatMap Token.text = r ∧ ∀ q' ∈ SLACK,
        (RunsOn beyond q' ((ts₁.flatMap (Token.write replaced)).map Prod.fst) ↔ RunsOn beyond q' (l.map Prod.fst))) := by
  have hbefore := before_of_slack hq
  rcases h.cut (pattern_of_before hbefore) (h.first (List.mem_append_left AFTER hbefore)) beyond ht with
    ⟨ts₁, ts₂, hts, rfl, rfl⟩ | ⟨ts₁, u, v, ts₂, hts, -, -, rfl, hv⟩
  · have hright : ((x ++ [c]).map Token.kept ++ ts₂).flatMap Token.text = plain "sk".toList ++ ('_', false) :: rest := by
      rw [List.flatMap_append, text_kept, ← hsk, List.append_assoc]
      rfl
    exact .inr ⟨not_runsOn hq hts hright, ts₁, ts₂, hts, rfl, rfl, fun q' hq' => runsOn_write hq hts hright hq'⟩
  · obtain ⟨hrest, hruns⟩ := crosses hq hts (hv.trans hsk)
    exact .inl ⟨hruns, ts₁, u ++ v, ts₂, hts, hrest⟩

end Seam

theorem KeyRun.sk {k : List Letter} (hk : KeyRun k) : ∃ rest, k = plain "sk".toList ++ ('_', false) :: rest := by
  obtain ⟨b, rfl, -⟩ := hk.opens
  exact ⟨_, rfl⟩

/-- **Without a Slack token that runs on** the keys' pass finds the key as it was. -/
theorem carried_slack {k : List Letter} (hk : KeyRun k) (hq : q ∈ SLACK) {l r : List Letter} (ht : t = l ++ (k ++ r))
    (hl : Clear l) (hr : Clear r) (hapart : Apart beyond l) (hno : ¬ RunsOn beyond q (l.map Prod.fst)) :
    ∃ l' r', q.subMarked beyond t = l' ++ (k ++ r') ∧ Clear l' ∧ Clear r' ∧ Apart beyond l' ∧
      ∀ q' ∈ SLACK, (RunsOn beyond q' (l'.map Prod.fst) ↔ RunsOn beyond q' (l.map Prod.fst)) := by
  obtain ⟨rest, hrest⟩ := hk.sk
  obtain ⟨x, c, rfl, hsolid⟩ := hk.solid
  have hsk : x ++ c :: r = plain "sk".toList ++ ('_', false) :: (rest ++ r) := by
    rw [List.append_cons, hrest, List.append_assoc, List.cons_append]
  rw [List.append_assoc, List.singleton_append] at ht
  rcases hsolid.slack hq beyond ht hsk with ⟨hruns, -⟩ | ⟨-, ts₁, ts₂, hts, rfl, rfl, hiff⟩
  · exact absurd hruns hno
  · refine ⟨ts₁.flatMap (Token.write replaced), ts₂.flatMap (Token.write replaced), ?_, clear_write hl, clear_write hr,
      apart_write hapart, hiff⟩
    unfold Credential.subMarked
    rw [hts, List.flatMap_append, List.flatMap_append, write_kept]

theorem redactMarked_eq (beyond : Char → Bool) (t : List Letter) : redactMarked beyond t =
    AFTER.foldl (fun t p => p.subMarked beyond t) (apiKey.subMarked beyond
      ([googleAccess, googleRefresh, googleSecret].foldl (fun t p => p.subMarked beyond t)
        (slackApp.subMarked beyond (slack.subMarked beyond t)))) := by
  unfold redactMarked
  rw [TOKEN_PATTERNS_around, List.foldl_append, List.foldl_cons, BEFORE, List.foldl_cons, List.foldl_cons]

/-- **A key without `-`**, behind no Slack token that runs on, is covered. -/
theorem clear_of_run {k l r : List Letter} (hk : KeyRun k) (hl : Clear l) (hr : Clear r) (hapart : Apart beyond l)
    (hno : ∀ q ∈ SLACK, ¬ RunsOn beyond q (l.map Prod.fst)) : Clear (redactMarked beyond (l ++ (k ++ r))) := by
  have hslack : slack ∈ SLACK := List.mem_cons_self
  have hslackApp : slackApp ∈ SLACK := List.mem_cons_of_mem _ List.mem_cons_self
  obtain ⟨l₁, r₁, h₁, hl₁, hr₁, hapart₁, hiff₁⟩ := carried_slack hk hslack rfl hl hr hapart (hno _ hslack)
  obtain ⟨l₂, r₂, h₂, hl₂, hr₂, hapart₂, -⟩ := carried_slack hk hslackApp h₁ hl₁ hr₁ hapart₁ fun h =>
    hno _ hslackApp ((hiff₁ _ hslackApp).1 h)
  have hgoogle : ∀ (ps : List Credential) (t : List Letter), (∀ q ∈ ps, q ∈ [googleAccess, googleRefresh, googleSecret]) →
      Carried beyond k t → Carried beyond k (ps.foldl (fun t p => p.subMarked beyond t) t) := by
    intro ps
    induction ps with
    | nil => exact fun t _ h => h
    | cons p ps ih =>
      exact fun t hps h => ih _ (fun q hq => hps q (List.mem_cons_of_mem _ hq))
        (carried_google hk (hps p List.mem_cons_self) h)
  rw [redactMarked_eq]
  refine clear_passes (fun p hp => pattern_of_after hp) (clear_apiKey hk (hgoogle _ _ (fun q hq => hq) (.inr ?_)))
  exact ⟨l₂, r₂, h₂, hl₂, hr₂, hapart₂⟩

/-! ## What is left standing -/

/-- A marked character that no pass takes: it stands in a run that no pattern begins in, or right behind one that the
keys' pattern takes, and nothing found before it can reach it, nor has it a quote behind it. -/
structure Standing (a x : List Letter) (c : Letter) (b : List Letter) : Prop where
  closed : ∀ d ∈ a.getLast?, d.1 = '»'
  solid : Solid x c
  isMarked : c.2 = true
  dash : c.1 = '-' ∨ ∀ d, (x ++ [c]).head? = some d → d.1 ≠ 's'
  unquoted : '"' ∉ (x ++ c :: b).map Prod.fst

def Stuck (t : List Letter) : Prop := ∃ a x c b, t = a ++ (x ++ c :: b) ∧ Standing a x c b

theorem Stuck.not_clear (h : Stuck t) : ¬ Clear t := by
  obtain ⟨a, x, c, b, rfl, h⟩ := h
  intro hclear
  have hc := hclear c (by simp)
  rw [h.isMarked] at hc
  cases hc

theorem avoids_or_quote (hp : p ∈ TOKEN_PATTERNS) :
    p.body.avoids '»' = true ∨ ∀ c, p.body.last c = true → c = '"' := by
  simp only [TOKEN_PATTERNS, List.mem_cons, List.not_mem_nil, or_false] at hp
  rcases hp with rfl | rfl | rfl | rfl | rfl | rfl | rfl | rfl | rfl
  all_goals first | exact .inl (by decide) | skip
  refine .inr fun c hc => ?_
  have hfold : fold c = '"' := by
    simpa [jsonField, Credential.body, Credential.ignoreCase, Regex.last, Regex.comap, Regex.minLength, lit] using hc
  exact eq_of_fold hfold (by decide)

/-- No match begins before the sign that ends a replacement and reaches what has no quote. -/
theorem no_crossing (hp : p ∈ TOKEN_PATTERNS) {u v : List Letter}
    (hts : p.markedTokens beyond t = ts₁ ++ .found (u ++ v) :: ts₂) (hu : u ≠ []) (hv : v ≠ [])
    (hclosed : ∀ d ∈ (ts₁.flatMap Token.text ++ u).getLast?, d.1 = '»')
    (hunquoted : '"' ∉ (v ++ ts₂.flatMap Token.text).map Prod.fst) : False := by
  obtain ⟨u, d, rfl⟩ := (List.eq_nil_or_concat u).resolve_left hu
  obtain ⟨v, e, rfl⟩ := (List.eq_nil_or_concat v).resolve_left hv
  have hd : d.1 = '»' := hclosed d (by simp)
  have hlang := (found_marked hp hts).1.1
  rcases avoids_or_quote hp with havoids | hquote
  · refine hlang.not_mem havoids ?_
    rw [← hd]
    exact List.mem_map_of_mem (by simp)
  · have hlast : ((u.concat d ++ v.concat e).map Prod.fst).getLast? = some e.1 := by
      have hsplit : u.concat d ++ v.concat e = (u.concat d ++ v).concat e := by simp
      rw [hsplit, List.concat_eq_append, List.map_append]
      exact List.getLast?_concat
    have he : e.1 = '"' := hquote e.1 (hlang.last hlast)
    refine hunquoted ?_
    rw [← he]
    exact List.mem_map_of_mem (by simp)

theorem unquoted_write (h : '"' ∉ (ts.flatMap Token.text).map Prod.fst) :
    '"' ∉ (ts.flatMap (Token.write replaced)).map Prod.fst := by
  intro hc
  obtain ⟨c, hc, hquote⟩ := List.mem_map.1 hc
  obtain ⟨tok, htok, hc⟩ := List.mem_flatMap.1 hc
  cases tok with
  | kept d => exact h (List.mem_map.2 ⟨c, List.mem_flatMap.2 ⟨_, htok, hc⟩, hquote⟩)
  | found w =>
    have hraw : '"' ∉ w.map Prod.fst → '"' ∉ replacement (w.map Prod.fst) := not_mem_replacement (by decide) (by decide)
    refine hraw (fun hw => h ?_) ?_
    · obtain ⟨d, hd, hdquote⟩ := List.mem_map.1 hw
      exact List.mem_map.2 ⟨d, List.mem_flatMap.2 ⟨_, htok, hd⟩, hdquote⟩
    · have hmem := List.mem_map_of_mem (f := Prod.fst) hc
      rw [hquote, Token.write, replaced, plain_fst] at hmem
      exact hmem

theorem closed_write (h : ∀ d ∈ (ts.flatMap Token.text).getLast?, d.1 = '»') :
    ∀ d ∈ (ts.flatMap (Token.write replaced)).getLast?, d.1 = '»' :=
  last_write (fun w _ => ⟨_, last_replaced w, rfl⟩) h

theorem closed_found (ts : List (Token Letter)) (w : List Letter) :
    ∀ d ∈ ((ts ++ [Token.found w]).flatMap (Token.write replaced)).getLast?, d.1 = '»' := by
  have hwrite : (Token.found w).write replaced = replaced w := rfl
  rw [List.flatMap_append, List.flatMap_singleton, hwrite, List.getLast?_append, last_replaced]
  rintro d ⟨⟩
  rfl

/-- What is kept behind a replacement, or from the start on, is left standing. -/
theorem stuck_write {c : Letter} (hclosed : ∀ d ∈ (ts₁.flatMap (Token.write replaced)).getLast?, d.1 = '»')
    (hsolid : Solid x c) (hmarked : c.2 = true) (hdash : c.1 = '-' ∨ ∀ d, (x ++ [c]).head? = some d → d.1 ≠ 's')
    (hunquoted : '"' ∉ (x ++ c :: ts₂.flatMap Token.text).map Prod.fst) :
    Stuck ((ts₁ ++ ((x ++ [c]).map Token.kept ++ ts₂)).flatMap (Token.write replaced)) := by
  refine ⟨ts₁.flatMap (Token.write replaced), x, c, ts₂.flatMap (Token.write replaced), ?_, hclosed, hsolid, hmarked, hdash,
    ?_⟩
  · rw [List.flatMap_append, List.flatMap_append, write_kept, List.append_assoc]
    rfl
  · have hsplit : ∀ b : List Letter, (x ++ c :: b).map Prod.fst = (x ++ [c]).map Prod.fst ++ b.map Prod.fst := by simp
    rw [hsplit, List.mem_append, not_or] at hunquoted ⊢
    exact ⟨hunquoted.1, unquoted_write hunquoted.2⟩

theorem stuck_pass (hp : p ∈ TOKEN_PATTERNS) {a x b : List Letter} {c : Letter} (ht : t = a ++ (x ++ c :: b))
    (h : Standing a x c b) (hfirst : ∀ d, (x ++ [c]).head? = some d → p.body.first d.1 = false) :
    Stuck (p.subMarked beyond t) := by
  unfold Credential.subMarked
  rcases h.solid.cut hp hfirst beyond ht with ⟨ts₁, ts₂, hts, rfl, rfl⟩ | ⟨ts₁, u, v, ts₂, hts, hu, hv, rfl, hright⟩
  · rw [hts]
    exact stuck_write (closed_write h.closed) h.solid h.isMarked h.dash h.unquoted
  · have hunquoted := h.unquoted
    rw [← hright] at hunquoted
    exact (no_crossing hp hts hu hv h.closed hunquoted).elim

theorem found_ne_nil (hp : p ∈ TOKEN_PATTERNS) {w : List Letter} (hts : p.markedTokens beyond t = ts₁ ++ .found w :: ts₂) :
    w ≠ [] := by
  rintro rfl
  exact (found_marked hp hts).1.ne_nil (pos_of_pattern hp) rfl

theorem eq_nil_of_text (hp : p ∈ TOKEN_PATTERNS) (beyond : Char → Bool) (t : List Letter)
    (hts : ∀ tok ∈ ts, tok ∈ p.markedTokens beyond t) (h : ts.flatMap Token.text = []) : ts = [] := by
  cases ts with
  | nil => rfl
  | cons tok ts =>
    rw [List.flatMap_cons, List.append_eq_nil_iff] at h
    cases tok with
    | kept d => cases h.1
    | found w =>
      obtain ⟨ts₁, ts₂, htokens⟩ := List.append_of_mem (hts _ List.mem_cons_self)
      exact absurd h.1 (found_ne_nil hp htokens)

/-- The keys' pass takes a run up to the `-` behind it, or leaves it. -/
theorem stuck_apiKey {a x b : List Letter} {c : Letter} (ht : t = a ++ (x ++ c :: b)) (h : Standing a x c b)
    (hc : c.1 = '-') : Stuck (apiKey.subMarked beyond t) := by
  have hmem : apiKey ∈ TOKEN_PATTERNS := List.mem_append_right BEFORE List.mem_cons_self
  obtain ⟨cls, hgreedy, hcls⟩ := greedy_exact (p := apiKey) (by simp [EXACT])
  have hscan := scanned_marked hmem beyond t
  have hdash : ∀ w, .found w ∈ apiKey.markedTokens beyond t → c ∉ w := by
    intro w hw hcw
    obtain ⟨ts₁, ts₂, hts⟩ := List.append_of_mem hw
    have hrun := lang_apiKey (found_marked hmem hts).1.1 c.1 (List.mem_map_of_mem hcw)
    rw [hc] at hrun
    cases hrun
  rw [← List.append_assoc] at ht
  obtain ⟨ts₀, ts₅, hts, hleft, rfl⟩ := kept_of_text hdash (hscan.text.trans ht)
  unfold Credential.subMarked
  rcases cut_text hleft with ⟨ts₁, ts₃, rfl, rfl, rfl⟩ | ⟨ts₁, u, v, ts₂, rfl, hu, hv, rfl, rfl⟩
  · rcases kept_or_found ts₃ with ⟨z, rfl⟩ | ⟨z, w, r, rfl⟩
    · rw [text_kept] at h
      have hkeep : ts₁ ++ z.map Token.kept ++ .kept c :: ts₅ = ts₁ ++ ((z ++ [c]).map Token.kept ++ ts₅) := by simp
      rw [hts, hkeep]
      exact stuck_write (closed_write h.closed) h.solid h.isMarked h.dash h.unquoted
    · -- The word found takes the rest of the run, so it ends right before the `-`.
      have hsplit : apiKey.markedTokens beyond t = (ts₁ ++ z.map .kept) ++ .found w :: (r ++ .kept c :: ts₅) := by
        simp [hts]
      have htext : w ++ (r ++ .kept c :: ts₅).flatMap Token.text =
          (w ++ r.flatMap Token.text) ++ c :: ts₅.flatMap Token.text := by
        simp [Token.text]
      obtain ⟨y, hy, -⟩ := takes_run hmem hgreedy hsplit htext fun d hd => hcls _ (h.solid.run d (by
        rw [List.flatMap_append, List.flatMap_cons]
        exact List.mem_append_right _ hd))
      have hr : r = [] := by
        rw [List.append_assoc, List.self_eq_append_right, List.append_eq_nil_iff] at hy
        refine eq_nil_of_text hmem beyond t (fun tok htok => ?_) hy.1
        rw [hts]
        simp [htok]
      subst hr
      have hunquoted := h.unquoted
      rw [List.map_append, List.mem_append, not_or] at hunquoted
      have hbehind : ts₁ ++ (z.map Token.kept ++ [.found w]) ++ .kept c :: ts₅ =
          (ts₁ ++ z.map Token.kept ++ [.found w]) ++ ((([] : List Letter) ++ [c]).map Token.kept ++ ts₅) := by simp
      rw [hts, hbehind]
      refine stuck_write (closed_found _ w) ⟨fun d hd => absurd hd List.not_mem_nil, .inl hc, ?_⟩ h.isMarked (.inl hc)
        hunquoted.2
      rintro d ⟨⟩
      rw [hc]
      decide
  · have hcrossing : apiKey.markedTokens beyond t = ts₁ ++ .found (u ++ v) :: (ts₂ ++ .kept c :: ts₅) := by
      rw [hts]
      simp
    have hunquoted : '"' ∉ (v ++ (ts₂ ++ .kept c :: ts₅).flatMap Token.text).map Prod.fst := by
      have hbefore := h.unquoted
      rw [List.append_assoc] at hbefore
      rwa [List.flatMap_append]
    exact (no_crossing hmem hcrossing hu hv h.closed hunquoted).elim

/-- **What stands is left standing** by every pass. -/
theorem stuck_step (hp : p ∈ TOKEN_PATTERNS) (h : Stuck t) : Stuck (p.subMarked beyond t) := by
  obtain ⟨a, x, c, b, ht, h⟩ := h
  rw [TOKEN_PATTERNS_around, List.mem_append, List.mem_cons] at hp
  rcases hp with hp | rfl | hp
  · exact stuck_pass (pattern_of_before hp) ht h (h.solid.first (List.mem_append_left AFTER hp))
  · rcases h.dash with hc | hhead
    · exact stuck_apiKey ht h hc
    · refine stuck_pass (List.mem_append_right BEFORE List.mem_cons_self) ht h fun d hd => ?_
      have hd' := h.solid.head d hd
      have hs := hhead d hd
      simp only [List.mem_cons, List.not_mem_nil, or_false] at hd'
      rcases hd' with hd' | hd' | hd'
      · exact absurd hd' hs
      · rw [hd']
        decide
      · rw [hd']
        decide
  · exact stuck_pass (pattern_of_after hp) ht h (h.solid.first (List.mem_append_right BEFORE hp))

theorem stuck_passes {ps : List Credential} (hps : ∀ p ∈ ps, p ∈ TOKEN_PATTERNS) :
    ∀ {t : List Letter}, Stuck t → Stuck (ps.foldl (fun t p => p.subMarked beyond t) t) := by
  induction ps with
  | nil => exact fun h => h
  | cons p ps ih =>
    intro t h
    exact ih (fun q hq => hps q (List.mem_cons_of_mem _ hq)) (stuck_step (hps p List.mem_cons_self) h)

/-- **A Slack token that runs on** takes the marker's `sk`, and leaves the key behind it standing. -/
theorem stuck_of_runsOn {l b : List Letter} {c : Letter} (hc : c.1 = '-' ∨ alnumOr ['_'] c.1 = true) (hmarked : c.2 = true)
    (hunquoted : '"' ∉ (c :: b).map Prod.fst) (hq : q ∈ SLACK) (ht : t = l ++ (plain ApiKeys.PREFIX ++ c :: b))
    (hruns : RunsOn beyond q (l.map Prod.fst)) : Stuck (q.subMarked beyond t) := by
  have hmem := pattern_of_before (before_of_slack hq)
  have hsolid : Solid (plain ApiKeys.PREFIX) c := ⟨by decide, hc, by rintro d ⟨⟩; decide⟩
  have hsk : plain ApiKeys.PREFIX ++ c :: b = plain "sk".toList ++ ('_', false) :: (plain "live_".toList ++ c :: b) := rfl
  rcases hsolid.slack hq beyond ht hsk with ⟨-, ts₁, w, ts₂, hts, hrest⟩ | ⟨hno, -⟩
  · have htail : Solid (plain "_live_".toList) c := ⟨by decide, hc, by rintro d ⟨⟩; decide⟩
    have hscan := scanned_marked hmem beyond t
    rw [hts, List.append_cons] at hscan
    have hbehind := hscan.behind
    rw [hrest] at hbehind
    obtain ⟨ts₃, rfl, rfl⟩ := htail.kept hmem (htail.first (List.mem_append_left AFTER (before_of_slack hq))) hbehind
    unfold Credential.subMarked
    rw [hts, List.append_cons]
    refine stuck_write (closed_found ts₁ w) htail hmarked (.inr ?_) ?_
    · rintro d ⟨⟩
      decide
    · rw [List.map_append, List.mem_append, not_or]
      exact ⟨by decide, hunquoted⟩
  · exact absurd hruns hno

theorem redactMarked_stuck (beyond : Char → Bool) (t : List Letter)
    (h : Stuck (slack.subMarked beyond t) ∨ Stuck (slackApp.subMarked beyond (slack.subMarked beyond t))) :
    Stuck (redactMarked beyond t) := by
  have hpasses : Stuck (slackApp.subMarked beyond (slack.subMarked beyond t)) := by
    rcases h with h | h
    · exact stuck_step (List.mem_cons_of_mem _ List.mem_cons_self) h
    · exact h
  rw [redactMarked_eq]
  refine stuck_passes (fun p hp => pattern_of_after hp) (stuck_step (List.mem_append_right BEFORE List.mem_cons_self)
    (stuck_passes (fun p hp => pattern_of_before (List.mem_append_right [slack, slackApp] hp)) hpasses))

/-- A key behind a Slack token that runs on is left standing, with nothing behind it. -/
theorem not_clear_of_runsOn {l b : List Letter} {c : Letter} (hc : c.1 = '-' ∨ alnumOr ['_'] c.1 = true)
    (hmarked : c.2 = true) (hunquoted : '"' ∉ (c :: b).map Prod.fst) (hq : q ∈ SLACK)
    (hruns : RunsOn beyond q (l.map Prod.fst)) : ¬ Clear (redactMarked beyond (l ++ (plain ApiKeys.PREFIX ++ c :: b))) := by
  refine (redactMarked_stuck beyond _ ?_).not_clear
  have hslack : slack ∈ SLACK := List.mem_cons_self
  have hsolid : Solid (plain ApiKeys.PREFIX) c := ⟨by decide, hc, by rintro d ⟨⟩; decide⟩
  have hsk : plain ApiKeys.PREFIX ++ c :: b = plain "sk".toList ++ ('_', false) :: (plain "live_".toList ++ c :: b) := rfl
  have ht : l ++ (plain ApiKeys.PREFIX ++ c :: b) = l ++ (plain ApiKeys.PREFIX ++ c :: b) := rfl
  rcases hsolid.slack hslack beyond ht hsk with ⟨hslackRuns, -⟩ | ⟨hno, ts₁, ts₂, hts, rfl, rfl, hiff⟩
  · exact .inl (stuck_of_runsOn hc hmarked hunquoted hslack rfl hslackRuns)
  · simp only [SLACK, List.mem_cons, List.not_mem_nil, or_false] at hq
    rcases hq with rfl | rfl
    · exact absurd hruns hno
    · -- The first pass leaves the token and the key's beginning to the second.
      have hslackApp : slackApp ∈ SLACK := List.mem_cons_of_mem _ List.mem_cons_self
      have hmid : slack.subMarked beyond (ts₁.flatMap Token.text ++ (plain ApiKeys.PREFIX ++ c :: ts₂.flatMap Token.text)) =
          ts₁.flatMap (Token.write replaced) ++ (plain ApiKeys.PREFIX ++ c :: ts₂.flatMap (Token.write replaced)) := by
        unfold Credential.subMarked
        rw [hts, List.flatMap_append, List.flatMap_append, write_kept, List.append_assoc]
        rfl
      rw [List.map_cons, List.mem_cons, not_or] at hunquoted
      refine .inr (stuck_of_runsOn hc hmarked ?_ hslackApp hmid ((hiff slackApp hslackApp).2 hruns))
      rw [List.map_cons, List.mem_cons, not_or]
      exact ⟨hunquoted.1, unquoted_write hunquoted.2⟩

/-! ## Minted keys -/

/-- The letters of a minted key: its id, its secret and its checksum are marked. -/
def mintedKey (idBytes secretBytes : List UInt8) : List Letter :=
  plain ApiKeys.PREFIX ++ (marked (ApiKeys.b64 idBytes) ++ (plain ['_'] ++ (marked (ApiKeys.b64 secretBytes) ++
    marked (ApiKeys.checksum (ApiKeys.bodyOf (ApiKeys.b64 idBytes) (ApiKeys.b64 secretBytes))))))

theorem mintedKey_fst (idBytes secretBytes : List UInt8) :
    (mintedKey idBytes secretBytes).map Prod.fst = (ApiKeys.mint idBytes secretBytes).plaintext.toList := by
  rw [ApiKeys.mint, String.toList_ofList]
  simp only [mintedKey, ApiKeys.bodyOf, List.map_append, plain_fst, marked_fst, List.append_assoc, List.cons_append,
    List.nil_append]

variable (beyond) in
/-- A word character does not stand right before the key. -/
def Preceded (before : List Char) : Prop := ∀ c ∈ before.getLast?, isWord beyond c = false

variable (beyond) in
/-- No character of the key's id, secret or checksum survives in the text redacted. -/
def Covered (before : List Char) (key : List Letter) (after : List Char) : Prop :=
  Clear (redactMarked beyond (plain before ++ (key ++ plain after)))

variable (beyond) in
/-- The text before a key ends in a Slack token that takes the key's `sk` in. -/
def SlackRun (before : List Char) : Prop := ∃ q ∈ SLACK, RunsOn beyond q before

section Bytes

variable {idBytes secretBytes : List UInt8}

/-- What the key is made of: the marker, an id, a `_`, and the rest. -/
theorem mem_mintedKey {c : Letter} (h : c ∈ mintedKey idBytes secretBytes) : c ∈ plain ApiKeys.PREFIX ∨ c = ('_', false) ∨
    c.2 = true ∧ (c.1 ∈ ApiKeys.b64 idBytes ++ ApiKeys.b64 secretBytes ∨
      c.1 ∈ ApiKeys.checksum (ApiKeys.bodyOf (ApiKeys.b64 idBytes) (ApiKeys.b64 secretBytes))) := by
  have hmarked : ∀ {l : List Char}, c ∈ marked l → c.2 = true ∧ c.1 ∈ l := by
    intro l hc
    obtain ⟨d, hd, rfl⟩ := List.mem_map.1 hc
    exact ⟨rfl, hd⟩
  unfold mintedKey at h
  rw [List.mem_append, List.mem_append, List.mem_append, List.mem_append] at h
  rcases h with h | h | h | h | h
  · exact .inl h
  · exact .inr (.inr ⟨(hmarked h).1, .inl (List.mem_append_left _ (hmarked h).2)⟩)
  · exact .inr (.inl (List.mem_singleton.1 h))
  · exact .inr (.inr ⟨(hmarked h).1, .inl (List.mem_append_right _ (hmarked h).2)⟩)
  · exact .inr (.inr ⟨(hmarked h).1, .inr (hmarked h).2⟩)

theorem alnumOr_of_keyChar {c : Char} (h : ApiKeys.isKeyChar c = true) : c = '-' ∨ alnumOr ['_'] c = true := by
  simp only [ApiKeys.isKeyChar, Bool.or_eq_true, beq_iff_eq] at h
  rcases h with (h | rfl) | rfl
  · exact .inr (alnumOr_of_alphanum h)
  · exact .inr (by decide)
  · exact .inl rfl

theorem alnumOr_of_lowerHex {c : Char} (h : ApiKeys.isLowerHex c = true) : alnumOr ['_'] c = true := by
  refine alnumOr_of_alphanum ?_
  simp only [ApiKeys.isLowerHex, Bool.or_eq_true, Bool.and_eq_true, decide_eq_true_eq] at h
  unfold Char.isAlphanum Char.isAlpha Char.isLower
  simp only [Bool.or_eq_true, Bool.and_eq_true, decide_eq_true_eq]
  rcases h with h | ⟨hlo, hhi⟩
  · exact .inr h
  · exact .inl (.inr ⟨hlo, Nat.le_trans hhi (by decide)⟩)

/-- Every character of a key is of the key pattern's class, but for a `-` of the id or the secret. -/
theorem letter_of_mintedKey (hid : idBytes.length = ApiKeys.KEY_ID_BYTES)
    (hsecret : secretBytes.length = ApiKeys.SECRET_BYTES) {c : Letter} (h : c ∈ mintedKey idBytes secretBytes) :
    alnumOr ['_'] c.1 = true ∨ c.1 = '-' ∧ c.2 = true ∧ '-' ∈ ApiKeys.b64 idBytes ++ ApiKeys.b64 secretBytes := by
  have hgroups := ApiKeys.mint_groups hid hsecret
  have hkey : ∀ d ∈ ApiKeys.b64 idBytes ++ ApiKeys.b64 secretBytes, ApiKeys.isKeyChar d = true := by
    intro d hd
    rcases List.mem_append.1 hd with hd | hd
    · exact hgroups.idChars d hd
    · exact hgroups.secretChars d hd
  rcases mem_mintedKey h with h | rfl | ⟨hmarked, h | h⟩
  · have hall : ∀ c ∈ plain ApiKeys.PREFIX, alnumOr ['_'] c.1 = true := by decide
    exact .inl (hall c h)
  · exact .inl (by decide)
  · rcases alnumOr_of_keyChar (hkey c.1 h) with hdash | hrun
    · rw [hdash] at h
      exact .inr ⟨hdash, hmarked, h⟩
    · exact .inl hrun
  · exact .inl (alnumOr_of_lowerHex (hgroups.sumChars c.1 h))

theorem unquoted_mintedKey (hid : idBytes.length = ApiKeys.KEY_ID_BYTES)
    (hsecret : secretBytes.length = ApiKeys.SECRET_BYTES) : '"' ∉ (mintedKey idBytes secretBytes).map Prod.fst := by
  intro h
  obtain ⟨c, hc, hquote⟩ := List.mem_map.1 h
  rcases letter_of_mintedKey hid hsecret hc with h | ⟨h, -⟩
  · rw [hquote] at h
    cases h
  · rw [hquote] at h
    cases h

theorem keyRun_mintedKey (hid : idBytes.length = ApiKeys.KEY_ID_BYTES)
    (hsecret : secretBytes.length = ApiKeys.SECRET_BYTES) (hdash : '-' ∉ ApiKeys.b64 idBytes ++ ApiKeys.b64 secretBytes) :
    KeyRun (mintedKey idBytes secretBytes) := by
  refine ⟨⟨_, rfl, ?_⟩, fun c hc => (letter_of_mintedKey hid hsecret hc).resolve_right fun h => hdash h.2.2⟩
  have hlength := (ApiKeys.mint_groups hid hsecret).idLength
  simp only [List.length_append, marked, List.length_map, hlength]
  omega

/-- The first character of a key's id, behind the marker. -/
theorem mintedKey_id (hid : idBytes.length = ApiKeys.KEY_ID_BYTES) (hsecret : secretBytes.length = ApiKeys.SECRET_BYTES) :
    ∃ c b, mintedKey idBytes secretBytes = plain ApiKeys.PREFIX ++ c :: b ∧ c.2 = true := by
  have hlength := (ApiKeys.mint_groups hid hsecret).idLength
  obtain ⟨d, r, hd⟩ := List.exists_cons_of_length_pos (l := ApiKeys.b64 idBytes) (by omega)
  have hmarked : marked (ApiKeys.b64 idBytes) = (d, true) :: marked r := by
    rw [hd]
    rfl
  refine ⟨(d, true), marked r ++ (plain ['_'] ++ (marked (ApiKeys.b64 secretBytes) ++
    marked (ApiKeys.checksum (ApiKeys.bodyOf (ApiKeys.b64 idBytes) (ApiKeys.b64 secretBytes))))), ?_, rfl⟩
  unfold mintedKey
  rw [hmarked]
  rfl

/-- **A `-` in a key** is left standing where the key stands alone. -/
theorem not_covered_of_dash (hid : idBytes.length = ApiKeys.KEY_ID_BYTES)
    (hsecret : secretBytes.length = ApiKeys.SECRET_BYTES) (hdash : '-' ∈ ApiKeys.b64 idBytes ++ ApiKeys.b64 secretBytes) :
    ¬ Covered beyond [] (mintedKey idBytes secretBytes) [] := by
  have hmem : '-' ∈ (mintedKey idBytes secretBytes).map Prod.fst := by
    rw [List.mem_append] at hdash
    simp only [mintedKey, List.map_append, marked_fst, List.mem_append]
    rcases hdash with h | h
    · exact .inr (.inl h)
    · exact .inr (.inr (.inr (.inl h)))
  obtain ⟨l, r, hsplit, hfirst⟩ := List.eq_append_cons_of_mem hmem
  obtain ⟨x, cb, hkey, rfl, hcb⟩ := List.map_eq_append_iff.1 hsplit
  obtain ⟨c, b, rfl, hc, rfl⟩ := List.map_eq_cons_iff.1 hcb
  have hin : ∀ d ∈ x ++ c :: b, d ∈ mintedKey idBytes secretBytes := fun d hd => by rwa [hkey]
  have hrun : ∀ d ∈ x, alnumOr ['_'] d.1 = true := fun d hd =>
    (letter_of_mintedKey hid hsecret (hin d (List.mem_append_left _ hd))).resolve_right fun h =>
      hfirst (List.mem_map.2 ⟨d, hd, h.1⟩)
  have hmarked : c.2 = true := by
    rcases letter_of_mintedKey hid hsecret (hin c (by simp)) with h | h
    · rw [hc] at h
      cases h
    · exact h.2.1
  have hhead : ∀ d, (x ++ [c]).head? = some d → d.1 ∈ ['s', '_', '-'] := by
    intro d hd
    cases x with
    | nil =>
      cases hd
      rw [hc]
      decide
    | cons e x =>
      cases hd
      obtain ⟨rfl, -⟩ := List.cons.inj hkey
      decide
  have hunquoted : '"' ∉ (x ++ c :: b).map Prod.fst := by
    rw [← hkey]
    exact unquoted_mintedKey hid hsecret
  have hstuck : Stuck (mintedKey idBytes secretBytes) :=
    ⟨[], x, c, b, hkey, ⟨(by rintro d ⟨⟩), ⟨hrun, .inl hc, hhead⟩, hmarked, .inl hc, hunquoted⟩⟩
  have htext : plain [] ++ (mintedKey idBytes secretBytes ++ plain []) = mintedKey idBytes secretBytes :=
    List.append_nil _
  unfold Covered
  rw [htext]
  exact (stuck_passes (fun p hp => hp) hstuck).not_clear

/-- **What redaction covers of a minted key**: everything, in every text whose Slack tokens do not run on into it, exactly
where the key has no `-`; and behind a Slack token that runs on, a key is never covered in every text. -/
theorem minted_covered_iff (beyond : Char → Bool) (idBytes secretBytes : List UInt8)
    (hid : idBytes.length = ApiKeys.KEY_ID_BYTES) (hsecret : secretBytes.length = ApiKeys.SECRET_BYTES) :
    ((∀ before after, Preceded beyond before → ¬ SlackRun beyond before →
        Covered beyond before (mintedKey idBytes secretBytes) after) ↔
      '-' ∉ ApiKeys.b64 idBytes ++ ApiKeys.b64 secretBytes) ∧
    ∀ before, SlackRun beyond before → ¬ ∀ after, Covered beyond before (mintedKey idBytes secretBytes) after := by
  refine ⟨⟨fun h hdash => ?_, fun hdash before after hpreceded hno => ?_⟩, fun before hruns hall => ?_⟩
  · refine not_covered_of_dash hid hsecret hdash (h [] [] (fun c hc => by cases hc) ?_)
    rintro ⟨q, hq, a, u, hl, hstarts⟩
    obtain ⟨rfl, rfl⟩ := List.append_eq_nil_iff.1 hl.symm
    have hlong := (run_words (run_of_earlier (List.mem_append_left (EXACT ++ [bearer]) hq))).1
    exact absurd (Nat.le_trans hlong hstarts.1.minLength_le) (by decide)
  · refine clear_of_run (keyRun_mintedKey hid hsecret hdash) (clear_plain before) (clear_plain after) ?_ fun q hq hruns => ?_
    · intro c hc
      rw [plain, List.getLast?_map] at hc
      obtain ⟨d, hd, rfl⟩ := Option.map_eq_some_iff.1 hc
      exact hpreceded d hd
    · rw [plain_fst] at hruns
      exact hno ⟨q, hq, hruns⟩
  · obtain ⟨q, hq, hruns⟩ := hruns
    obtain ⟨c, b, hkey, hmarked⟩ := mintedKey_id hid hsecret
    have hunquoted := unquoted_mintedKey hid hsecret
    have hin : c ∈ mintedKey idBytes secretBytes := by
      rw [hkey]
      simp
    have hc := letter_of_mintedKey hid hsecret hin
    rw [hkey, List.map_append, List.mem_append, not_or] at hunquoted
    rw [← plain_fst before] at hruns
    have hnot : ¬ Clear (redactMarked beyond (plain before ++ (plain ApiKeys.PREFIX ++ c :: b))) :=
      not_clear_of_runsOn (hc.symm.imp_left And.left) hmarked hunquoted.2 hq hruns
    have hcovered := hall []
    have hnil : plain [] = [] := rfl
    unfold Covered at hcovered
    rw [hkey, hnil, List.append_nil] at hcovered
    exact hnot hcovered

end Bytes

/-- **A key's text after `api_key=`** covered, where the key has no `-`. -/
theorem minted_covered_zero : Covered (fun _ => false) "api_key=".toList
    (mintedKey ApiKeys.zeroId ApiKeys.zeroSecret) " x".toList := by
  have h := ((minted_covered_iff (fun _ => false) ApiKeys.zeroId ApiKeys.zeroSecret (by decide) (by decide)).1.2
    (by decide +kernel)) "api_key=".toList " x".toList
  refine h (by rintro c ⟨⟩; rfl) ?_
  rintro ⟨q, hq, a, u, hl, hstarts⟩
  have hlong := (run_words (run_of_earlier (List.mem_append_left (EXACT ++ [bearer]) hq))).1
  have hlength := congrArg List.length hl
  have hmin := hstarts.1.minLength_le
  simp at hlength hmin
  have hpattern : q.pattern.body.minLength = q.body.minLength := rfl
  omega

/-- **A key stays whole in the log** where its id begins with a `-`. -/
theorem dashed_key_leaks :
    let idBytes : List UInt8 := 0xF8 :: List.replicate 8 0
    Preceded (fun _ => false) [] ∧ ¬ Covered (fun _ => false) [] (mintedKey idBytes ApiKeys.zeroSecret) [] ∧
      redact (fun _ => false) (ApiKeys.mint idBytes ApiKeys.zeroSecret).plaintext.toList =
        (ApiKeys.mint idBytes ApiKeys.zeroSecret).plaintext.toList := by
  intro idBytes
  have hid : idBytes.length = ApiKeys.KEY_ID_BYTES := by decide
  refine ⟨(by rintro c ⟨⟩), not_covered_of_dash hid (by decide) (by decide +kernel), by decide +kernel⟩

end Redaction
end SafeSend
