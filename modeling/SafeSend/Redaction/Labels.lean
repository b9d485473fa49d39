import Mathlib.Data.List.TakeWhile
import SafeSend.Redaction.Patterns
/-!
# What a replacement shows

The parts of a match, and when the replacement is made of its label alone: the matched text starts with a marker, or has
a sign that ends a field's name.  Where it has neither, the whole text is taken for the name.
-/
namespace SafeSend
namespace Redaction

open Lib

/-- The matched text tells its label from its value: it starts with a marker, or has a sign that ends a name. -/
def Recognised (raw : List Char) : Prop := (markerOf raw).isSome = true ∨ '=' ∈ raw ∨ ':' ∈ raw

instance (raw : List Char) : Decidable (Recognised raw) := inferInstanceAs (Decidable (_ ∨ _ ∨ _))

/-- What the replacement begins with. -/
def labelOf (raw : List Char) : List Char := (markerOf raw).getD (keyOf raw)

theorem replacement_eq (raw : List Char) :
    replacement raw = labelOf raw ++ REDACTED ∨ replacement raw = labelOf raw ++ '=' :: REDACTED := by
  unfold replacement labelOf
  cases markerOf raw with
  | some marker => exact .inl rfl
  | none =>
    simp only [Option.getD_none]
    split
    · rename_i hkey
      rw [hkey]
      exact .inl rfl
    · exact .inr rfl

theorem mem_keyOf {raw : List Char} {c : Char} (h : c ∈ keyOf raw) : c ∈ raw := by
  have hstripped : ∀ {f : Char → Bool} {l : List Char}, c ∈ stripped f l → c ∈ l := by
    intro f l hc
    unfold stripped at hc
    rw [List.mem_reverse] at hc
    exact (List.dropWhile_sublist _).mem (List.mem_reverse.1 ((List.dropWhile_sublist _).mem hc))
  exact (List.takeWhile_sublist _).mem ((List.takeWhile_sublist _).mem (hstripped (hstripped h)))

/-- A replacement has no character that neither the match nor what is written of it has. -/
theorem not_mem_replacement {raw : List Char} {c : Char} (hmarkers : ∀ marker ∈ MARKERS, c ∉ marker)
    (hrest : c ∉ '=' :: REDACTED) (h : c ∉ raw) : c ∉ replacement raw := by
  have hlabel : c ∉ labelOf raw := by
    unfold labelOf
    cases hm : markerOf raw with
    | some marker => exact hmarkers marker (List.mem_of_find?_eq_some hm)
    | none => exact fun hc => h (mem_keyOf hc)
  intro hc
  rcases replacement_eq raw with he | he
  · rw [he] at hc
    exact (List.mem_append.1 hc).elim hlabel fun hc => hrest (List.mem_cons_of_mem _ hc)
  · rw [he] at hc
    exact (List.mem_append.1 hc).elim hlabel hrest

/-- What a match is replaced by, as far as its label goes. -/
def shown (l : List Char) : List Char :=
  match markerOf l with
  | some marker => marker ++ REDACTED
  | none => l ++ '=' :: REDACTED

/-- A match and its parts. -/
def Credential.Reads (p : Credential) (l s v raw : List Char) : Prop :=
  p.label.Lang l ∧ p.separator.Lang s ∧ p.value.Lang v ∧
    ∃ o c, p.opening.Lang o ∧ p.closing.Lang c ∧ raw = o ++ (l ++ (s ++ (v ++ c)))

theorem Credential.lang_body_iff {p : Credential} {raw : List Char} :
    p.body.Lang raw ↔ ∃ l s v, p.Reads l s v raw := by
  constructor
  · rintro ⟨o, _, rfl, ho, l, _, rfl, hl, s, _, rfl, hs, v, c, rfl, hv, hc⟩
    exact ⟨l, s, v, hl, hs, hv, o, c, ho, hc, rfl⟩
  · rintro ⟨l, s, v, hl, hs, hv, o, c, ho, hc, rfl⟩
    exact ⟨o, _, rfl, ho, l, _, rfl, hl, s, _, rfl, hs, v, c, rfl, hv, hc⟩

/-! ## Characters -/

/-- The characters a folded one may stand for. -/
def unfolded (d : Char) : List Char :=
  [d, d.toUpper] ++ if d = 'i' then [Char.ofNat 0x130, Char.ofNat 0x131] else if d = 's' then [Char.ofNat 0x17F]
    else if d = 'k' then [Char.ofNat 0x212A] else []

theorem ofNat_toNat {c : Char} {n : Nat} (h : c.toNat = n) : c = Char.ofNat n := by rw [← h, Char.ofNat_toNat]

theorem forall_ascii {p : Char → Prop} (h : ∀ n < 128, p (Char.ofNat n)) {c : Char} (hc : c.toNat < 128) : p c := by
  have hp := h c.toNat hc
  rwa [Char.ofNat_toNat] at hp

theorem toLower_of_wide {c : Char} (hc : 128 ≤ c.toNat) : c.toLower = c := by
  unfold Char.toLower
  rw [dif_neg]
  rintro ⟨-, hle⟩
  have hz : c.toNat ≤ 90 := UInt32.le_iff_toNat_le.1 hle
  omega

theorem toUpper_toLower {c d : Char} (h : c.toLower = d) : c = d ∨ c = d.toUpper := by
  subst h
  by_cases hc : c.toNat < 128
  · exact forall_ascii (p := fun c => c = c.toLower ∨ c = c.toLower.toUpper) (by decide) hc
  · exact .inl (toLower_of_wide (by omega)).symm

theorem mem_unfolded {c d : Char} (h : fold c = d) : c ∈ unfolded d := by
  unfold fold at h
  split at h
  · rename_i hc
    subst h
    rcases hc with hc | hc <;> rw [ofNat_toNat hc] <;> decide
  · split at h
    · rename_i hc
      subst h
      rw [ofNat_toNat hc]
      decide
    · split at h
      · rename_i hc
        subst h
        rw [ofNat_toNat hc]
        decide
      · unfold unfolded
        rcases toUpper_toLower h with rfl | rfl <;> simp

theorem fold_of_space {c : Char} (h : Text.isSpace c = true) : fold c = c := by
  by_cases hc : c.toNat < 128
  · exact forall_ascii (p := fun c => Text.isSpace c = true → fold c = c) (by decide) hc h
  · simp only [Text.isSpace, Bool.or_eq_true, Bool.and_eq_true, decide_eq_true_eq, beq_iff_eq] at h
    unfold fold
    rw [if_neg (by omega), if_neg (by omega), if_neg (by omega), toLower_of_wide (by omega)]

theorem isSpace_fold (c : Char) : Text.isSpace (fold c) = Text.isSpace c := by
  by_cases hc : c.toNat < 128
  · exact forall_ascii (p := fun c => Text.isSpace (fold c) = Text.isSpace c) (by decide +kernel) hc
  · by_cases hs : Text.isSpace c = true
    · rw [fold_of_space hs]
    · rw [Bool.not_eq_true] at hs
      rw [hs]
      unfold fold
      rw [toLower_of_wide (by omega)]
      split
      · rfl
      · split
        · rfl
        · split
          · rfl
          · exact hs

theorem eq_of_fold {c d : Char} (h : fold c = d) (hd : unfolded d = [d, d]) : c = d := by
  have hmem := mem_unfolded h
  rw [hd] at hmem
  simpa using hmem

/-! ## Literals -/

theorem lang_lit {s : String} {w : List Char} : (lit s).Lang w ↔ w = s.toList := by
  unfold lit
  generalize s.toList = l
  induction l generalizing w with
  | nil => exact Iff.rfl
  | cons c l ih =>
    simp only [List.foldr_cons, Regex.Lang, beq_iff_eq]
    constructor
    · rintro ⟨_, v, rfl, ⟨d, rfl, rfl⟩, hv⟩
      rw [ih.1 hv]
      rfl
    · rintro rfl
      exact ⟨[c], l, rfl, ⟨c, rfl, rfl⟩, ih.2 rfl⟩

theorem lang_oneOf {w : List Char} : ∀ {l : List String}, (oneOf l).Lang w ↔ ∃ s ∈ l, w = s.toList
  | [] => by simp [oneOf, Regex.Lang]
  | [s] => by simp [oneOf, lang_lit]
  | s :: t :: l => by
    rw [oneOf, Regex.Lang, lang_lit, lang_oneOf]
    · simp
    · exact List.cons_ne_nil t l

/-! ## Names -/

/-- The names of fields. -/
def NAMES : List String :=
  ["authorization", "bearer", "access_token", "refresh_token", "client_secret", "token", "id_token", "code"]

def IsName (l : List Char) : Prop := ∃ s ∈ NAMES, l.map fold = s.toList

theorem fold_mem_of_isName {l : List Char} (h : IsName l) {c : Char} (hc : c ∈ l) :
    fold c ∈ "abcdefghijklmnopqrstuvwxyz_".toList := by
  obtain ⟨s, hs, hl⟩ := h
  have hmem : fold c ∈ s.toList := hl ▸ List.mem_map_of_mem hc
  have hall : ∀ s ∈ NAMES, ∀ d ∈ s.toList, d ∈ "abcdefghijklmnopqrstuvwxyz_".toList := by decide
  exact hall s hs _ hmem

theorem IsName.not_mem {l : List Char} (h : IsName l) {c : Char} (hc : fold c ∉ "abcdefghijklmnopqrstuvwxyz_".toList) :
    c ∉ l := fun hm => hc (fold_mem_of_isName h hm)

theorem IsName.not_space {l : List Char} (h : IsName l) {c : Char} (hc : c ∈ l) : Text.isSpace c = false := by
  have hmem := fold_mem_of_isName h hc
  by_contra hs
  rw [Bool.not_eq_false] at hs
  rw [fold_of_space hs] at hmem
  have hall : ∀ d ∈ "abcdefghijklmnopqrstuvwxyz_".toList, Text.isSpace d = false := by decide
  rw [hall c hmem] at hs
  cases hs

theorem IsName.length {l : List Char} (h : IsName l) : 0 < l.length ∧ l.length ≤ 13 := by
  obtain ⟨s, hs, hl⟩ := h
  have hlength : l.length = s.toList.length := by rw [← hl, List.length_map]
  have hall : ∀ s ∈ NAMES, 0 < s.toList.length ∧ s.toList.length ≤ 13 := by decide
  rw [hlength]
  exact hall s hs

/-- The characters a name may begin with. -/
def INITIALS : List Char := "abcrit".toList.flatMap unfolded

theorem IsName.head {l : List Char} (h : IsName l) : ∃ c r, l = c :: r ∧ c ∈ INITIALS := by
  obtain ⟨c, r, rfl⟩ := List.exists_cons_of_length_pos h.length.1
  obtain ⟨s, hs, hl⟩ := h
  have hall : ∀ s ∈ NAMES, s.toList.head? ∈ "abcrit".toList.map some := by decide
  have hhead := hall s hs
  rw [← hl, List.map_cons, List.head?_cons, List.mem_map] at hhead
  obtain ⟨d, hd, he⟩ := hhead
  cases he
  exact ⟨c, r, rfl, List.mem_flatMap.2 ⟨fold c, hd, mem_unfolded rfl⟩⟩

theorem markerOf_initial : ∀ c ∈ '"' :: INITIALS, ∀ x, markerOf (c :: x) = none := by
  have hinitials : INITIALS = ['a', 'A', 'b', 'B', 'c', 'C', 'r', 'R', 'i', 'I', Char.ofNat 0x130, Char.ofNat 0x131, 't',
    'T'] := by decide
  intro c hc x
  rw [hinitials] at hc
  repeat' rcases List.mem_cons.1 hc with rfl | hc
  all_goals first | rfl | exact absurd hc List.not_mem_nil

/-! ## Keys -/

theorem stripped_wrap {p : Char → Bool} {a x b : List Char} (ha : ∀ c ∈ a, p c = true) (hb : ∀ c ∈ b, p c = true)
    (hx : x ≠ []) (hhead : ∀ c, x.head? = some c → p c = false) (hlast : ∀ c, x.getLast? = some c → p c = false) :
    stripped p (a ++ x ++ b) = x := by
  have hdrop : ∀ {y : List Char}, y ≠ [] → (∀ c, y.head? = some c → p c = false) → ∀ r, (y ++ r).dropWhile p = y ++ r := by
    intro y hy h r
    obtain ⟨c, y, rfl⟩ := List.exists_cons_of_ne_nil hy
    rw [List.cons_append, List.dropWhile_cons_of_neg]
    rw [h c rfl]
    exact Bool.false_ne_true
  unfold stripped
  rw [List.append_assoc, List.dropWhile_append_of_pos ha, hdrop hx hhead, List.reverse_append,
    List.dropWhile_append_of_pos fun c hc => hb c (List.mem_reverse.1 hc)]
  have hrev := hdrop (y := x.reverse) (by simpa using hx) (fun c hc => hlast c (by simpa using hc)) []
  rw [List.append_nil] at hrev
  rw [hrev, List.reverse_reverse]

theorem stripped_self {p : Char → Bool} {x : List Char} (hx : x ≠ []) (hhead : ∀ c, x.head? = some c → p c = false)
    (hlast : ∀ c, x.getLast? = some c → p c = false) : stripped p x = x := by
  have h := stripped_wrap (a := []) (b := []) (p := p) (x := x) (by simp) (by simp) hx hhead hlast
  rwa [List.nil_append, List.append_nil] at h

/-- `raw.split("=")[0].split(":")[0]` ends at the first of the two. -/
theorem takeWhile_split {x r : List Char} {d : Char} (hx : '=' ∉ x ∧ ':' ∉ x) (hd : d = '=' ∨ d = ':') :
    ((x ++ d :: r).takeWhile (· != '=')).takeWhile (· != ':') = x := by
  have heq : ∀ c ∈ x, (c != '=') = true := fun c hc => by
    rw [bne_iff_ne]
    rintro rfl
    exact hx.1 hc
  have hcolon : ∀ c ∈ x, (c != ':') = true := fun c hc => by
    rw [bne_iff_ne]
    rintro rfl
    exact hx.2 hc
  rw [List.takeWhile_append_of_pos heq]
  rcases hd with rfl | rfl
  · rw [List.takeWhile_cons_of_neg (by decide), List.append_nil]
    exact List.takeWhile_eq_self_iff.2 hcolon
  · rw [List.takeWhile_cons_of_pos (by decide), List.takeWhile_append_of_pos hcolon,
      List.takeWhile_cons_of_neg (by decide), List.append_nil]

/-- **The key of a match is the name in it**, whatever quotes and spaces stand between. -/
theorem keyOf_named {a l b sp r : List Char} {d : Char} (hl : IsName l) (ha : ∀ c ∈ a, c = '"') (hb : ∀ c ∈ b, c = '"')
    (hsp : ∀ c ∈ sp, Text.isSpace c = true) (hd : d = '=' ∨ d = ':') : keyOf (a ++ l ++ b ++ sp ++ d :: r) = l := by
  have hquote : ∀ c ∈ a ++ l ++ b, Text.isSpace c = false ∧ c ≠ '=' ∧ c ≠ ':' := by
    intro c hc
    rcases List.mem_append.1 hc with hc | hc
    · rcases List.mem_append.1 hc with hc | hc
      · rw [ha c hc]
        decide
      · refine ⟨hl.not_space hc, ?_, ?_⟩
        · rintro rfl
          exact hl.not_mem (by decide) hc
        · rintro rfl
          exact hl.not_mem (by decide) hc
    · rw [hb c hc]
      decide
  have hsign : ∀ e, e = '=' ∨ e = ':' → e ∉ a ++ l ++ b ++ sp := by
    intro e he hm
    rcases List.mem_append.1 hm with hm | hm
    · rcases he with rfl | rfl
      · exact (hquote _ hm).2.1 rfl
      · exact (hquote _ hm).2.2 rfl
    · have hspace := hsp e hm
      rcases he with rfl | rfl <;> cases hspace
  have hne : l ≠ [] := List.length_pos_iff.1 hl.length.1
  unfold keyOf
  rw [takeWhile_split ⟨hsign _ (.inl rfl), hsign _ (.inr rfl)⟩ hd]
  have hspaces : stripped Text.isSpace (a ++ l ++ b ++ sp) = a ++ l ++ b := by
    have h := stripped_wrap (a := []) (x := a ++ l ++ b) (b := sp) (p := Text.isSpace) (by simp) hsp (by simp [hne])
      (fun c hc => (hquote c (List.mem_of_head? hc)).1) fun c hc => (hquote c (List.mem_of_getLast? hc)).1
    rwa [List.nil_append] at h
  have hnoquote : ∀ c ∈ l, (c == '"') = false := fun c hc => by
    rw [beq_eq_false_iff_ne]
    rintro rfl
    exact hl.not_mem (by decide) hc
  rw [hspaces, stripped_wrap (fun c hc => by rw [ha c hc]; rfl) (fun c hc => by rw [hb c hc]; rfl) hne
    (fun c hc => hnoquote c (List.mem_of_head? hc)) fun c hc => hnoquote c (List.mem_of_getLast? hc)]

/-- **Without a marker or a sign the whole text is the key**, and the replacement has it all. -/
theorem replacement_bare {raw : List Char} (hraw : ¬ Recognised raw) (hne : raw ≠ [])
    (hhead : ∀ c, raw.head? = some c → Text.isSpace c = false ∧ c ≠ '"')
    (hlast : ∀ c, raw.getLast? = some c → Text.isSpace c = false ∧ c ≠ '"') :
    replacement raw = raw ++ '=' :: REDACTED := by
  unfold Recognised at hraw
  rw [not_or, not_or] at hraw
  obtain ⟨hmarker, heq, hcolon⟩ := hraw
  have hkey : keyOf raw = raw := by
    unfold keyOf
    have htake : (raw.takeWhile (· != '=')).takeWhile (· != ':') = raw := by
      rw [List.takeWhile_eq_self_iff.2, List.takeWhile_eq_self_iff.2]
      · intro c hc
        rw [bne_iff_ne]
        rintro rfl
        exact heq hc
      · intro c hc
        rw [bne_iff_ne]
        rintro rfl
        exact hcolon ((List.takeWhile_sublist _).mem hc)
    rw [htake, stripped_self hne (fun c hc => (hhead c hc).1) fun c hc => (hlast c hc).1,
      stripped_self hne (fun c hc => beq_eq_false_iff_ne.2 (hhead c hc).2) fun c hc => beq_eq_false_iff_ne.2 (hlast c hc).2]
  unfold replacement
  rw [Option.not_isSome_iff_eq_none.1 hmarker, hkey]
  exact if_neg hne

/-! ## Markers -/

theorem lowered_cons (c : Char) (l : List Char) : lowered (c :: l) = lowered [c] ++ lowered l := by
  unfold lowered
  rw [List.flatMap_cons, List.flatMap_cons, List.flatMap_nil, List.append_nil]

theorem lowered_append (l x : List Char) : lowered (l ++ x) = lowered l ++ lowered x := List.flatMap_append

theorem lowered_of_fold {c d : Char} (h : fold c = d) (hd : d ∉ ['i', 's', 'k']) : lowered [c] = [d] := by
  unfold fold at h
  split at h
  · exact absurd (h ▸ by decide) hd
  · split at h
    · exact absurd (h ▸ by decide) hd
    · split at h
      · exact absurd (h ▸ by decide) hd
      · rename_i hi hs hk
        rw [not_or] at hi
        unfold lowered
        rw [List.flatMap_cons, if_neg hi.1, if_neg hk, h]
        rfl

/-- What follows a marker does not make it another. -/
def Marked (l marker : List Char) : Prop := ∀ x, markerOf (l ++ x) = some marker

theorem markerOf_append {l : List Char} (k x : List Char) (h : lowered l = k) :
    markerOf (l ++ x) = MARKERS.find? fun marker => (lowered marker).isPrefixOf (k ++ lowered x) := by
  unfold markerOf
  rw [lowered_append, h]

theorem lowered_of_map : ∀ {l k : List Char}, l.map fold = k → (∀ d ∈ k, d ∉ ['i', 's', 'k']) → lowered l = k
  | [], _, rfl, _ => rfl
  | c :: l, _, rfl, hk => by
    rw [lowered_cons, lowered_of_fold rfl (hk (fold c) List.mem_cons_self),
      lowered_of_map rfl fun d hd => hk d (List.mem_cons_of_mem _ hd)]
    rfl

theorem lang_fold_lit {s : String} {l : List Char} : ((lit s).comap fold).Lang l ↔ l.map fold = s.toList :=
  Regex.lang_comap.trans lang_lit

theorem slack_marked {l : List Char} (h : slack.label.Lang l) :
    (∃ marker ∈ MARKERS, Marked l marker ∧ l.map fold = marker.map fold) ∨
      lowered l = ['x', 'o', 'x', Char.ofNat 0x17F, '-'] := by
  obtain ⟨u, _, rfl, hu, _, v, rfl, ⟨c, rfl, hc⟩, hv⟩ := h
  have hc' : fold c ∈ "baprse".toList := List.contains_iff_mem.1 hc
  have hfold : (u ++ ([c] ++ v)).map fold = "xox".toList ++ (fold c :: "-".toList) := by
    rw [List.map_append, List.map_append, lang_fold_lit.1 hu, lang_fold_lit.1 hv]
    rfl
  have hl : lowered (u ++ ([c] ++ v)) = "xox".toList ++ (lowered [c] ++ "-".toList) := by
    rw [lowered_append, lowered_append, lowered_of_map (lang_fold_lit.1 hu) (by decide),
      lowered_of_map (lang_fold_lit.1 hv) (by decide)]
  have hfourth : lowered [c] = [fold c] ∨ lowered [c] = [Char.ofNat 0x17F] := by
    by_cases hs : fold c = 's'
    · have hall : ∀ c ∈ unfolded 's', lowered [c] = [fold c] ∨ lowered [c] = [Char.ofNat 0x17F] := by decide
      exact hall c (mem_unfolded hs)
    · have hall : ∀ d ∈ "baprse".toList, d ≠ 's' → d ∉ ['i', 's', 'k'] := by decide
      exact .inl (lowered_of_fold rfl (hall _ hc' hs))
  rcases hfourth with hfourth | hfourth
  · left
    rw [hfourth] at hl
    generalize fold c = d at hl hc' hfold
    have hall : ∀ d ∈ "baprse".toList, ['x', 'o', 'x', d, '-'] ∈ MARKERS ∧
        ['x', 'o', 'x', d, '-'].map fold = ['x', 'o', 'x', d, '-'] := by decide
    refine ⟨['x', 'o', 'x', d, '-'], (hall d hc').1, fun x => ?_, ?_⟩
    · rw [markerOf_append _ x hl]
      simp only [String.reduceToList, List.mem_cons, List.not_mem_nil, or_false] at hc'
      rcases hc' with rfl | rfl | rfl | rfl | rfl | rfl <;> rfl
    · rw [hfold, (hall d hc').2]
      rfl
  · right
    rw [hl, hfourth]
    rfl

theorem slackApp_marked {l : List Char} (h : slackApp.label.Lang l) : Marked l "xapp-".toList := by
  intro x
  rw [markerOf_append _ x (lowered_of_map (lang_fold_lit.1 h) (by decide))]
  rfl

/-! ## Parts of a match -/

variable {p : Credential} {l s v raw : List Char}

theorem Credential.Reads.of_bare (h : p.Reads l s v raw) (hopening : p.opening = .empty) (hseparator : p.separator = .empty)
    (hclosing : p.closing = .empty) : s = [] ∧ raw = l ++ v := by
  obtain ⟨-, hs, -, o, c, ho, hc, rfl⟩ := h
  rw [hopening] at ho
  rw [hseparator] at hs
  rw [hclosing] at hc
  rw [show s = [] from hs, show o = [] from ho, show c = [] from hc]
  simp

theorem exact_marked (marker : String) (hmarker : ∀ x, markerOf (marker.toList ++ x) = some marker.toList)
    (hmem : marker.toList ∈ MARKERS) (h : (lit marker).Lang l) : l ∈ MARKERS ∧ Marked l l := by
  rw [lang_lit.1 h]
  exact ⟨hmem, hmarker⟩

/-- The patterns of markers that do not ignore case. -/
def EXACT : List Credential := [googleAccess, googleRefresh, googleSecret, apiKey]

theorem exact_label (hp : p ∈ EXACT) (h : p.label.Lang l) : l ∈ MARKERS ∧ Marked l l := by
  simp only [EXACT, List.mem_cons, List.not_mem_nil, or_false] at hp
  rcases hp with rfl | rfl | rfl | rfl
  · exact exact_marked "ya29." (fun _ => rfl) (by decide) h
  · exact exact_marked "1//" (fun _ => rfl) (by decide) h
  · exact exact_marked "GOCSPX-" (fun _ => rfl) (by decide) h
  · exact exact_marked "sk_live_" (fun _ => rfl) (by decide) h

/-- The patterns of markers, but the one that a marker's own letters need not match. -/
def MARKED : List Credential := slackApp :: EXACT

theorem marked_label (hp : p ∈ MARKED) (h : p.label.Lang l) :
    ∃ marker ∈ MARKERS, Marked l marker ∧ l.map fold = marker.map fold := by
  rcases List.mem_cons.1 hp with rfl | hp
  · exact ⟨"xapp-".toList, by decide, slackApp_marked h, (lang_fold_lit.1 h).trans (by decide)⟩
  · obtain ⟨hmem, hmarked⟩ := exact_label hp h
    exact ⟨l, hmem, hmarked, rfl⟩

theorem replacement_marked {marker : List Char} (h : Marked l marker) (x : List Char) : replacement (l ++ x) = shown l := by
  have hl := h []
  rw [List.append_nil] at hl
  unfold replacement shown
  rw [h x, hl]

/-- The patterns of named fields. -/
def NAMED : List Credential := [bearer, jsonField, queryField]

theorem isName_of_label (hp : p ∈ NAMED) (h : p.label.Lang l) : IsName l := by
  have hnames : ∀ names : List String, (∀ s ∈ names, s ∈ NAMES) → ((oneOf names).comap fold).Lang l → IsName l := by
    intro names hsub hl
    obtain ⟨s, hs, hmap⟩ := lang_oneOf.1 (Regex.lang_comap.1 hl)
    exact ⟨s, hsub s hs, hmap⟩
  simp only [NAMED, List.mem_cons, List.not_mem_nil, or_false] at hp
  rcases hp with rfl | rfl | rfl
  · exact hnames _ (by decide) h
  · exact hnames _ (by decide) h
  · exact hnames _ (by decide) h

/-- A separator with a sign: quotes and spaces, then the sign. -/
def Signed (s : List Char) : Prop :=
  ∃ b sp d r, s = b ++ sp ++ d :: r ∧ (∀ c ∈ b, c = '"') ∧ (∀ c ∈ sp, Text.isSpace c = true) ∧ (d = '=' ∨ d = ':')

theorem spaces_of_mem : ∀ {s : List Char}, (∀ c ∈ s, c = '=' ∨ c = ':' ∨ Text.isSpace c = true) → '=' ∈ s ∨ ':' ∈ s →
    ∃ sp d r, s = sp ++ d :: r ∧ (∀ c ∈ sp, Text.isSpace c = true) ∧ (d = '=' ∨ d = ':')
  | [], _, h => absurd h (by simp)
  | c :: s, hs, h => by
    by_cases hc : c = '=' ∨ c = ':'
    · exact ⟨[], c, s, rfl, by simp, hc⟩
    · have hspace : Text.isSpace c = true := by
        rcases hs c List.mem_cons_self with h | h | h
        · exact absurd (.inl h) hc
        · exact absurd (.inr h) hc
        · exact h
      rw [not_or] at hc
      have htail : '=' ∈ s ∨ ':' ∈ s := by
        rcases h with h | h
        · exact .inl ((List.mem_cons.1 h).resolve_left fun he => hc.1 he.symm)
        · exact .inr ((List.mem_cons.1 h).resolve_left fun he => hc.2 he.symm)
      obtain ⟨sp, d, r, rfl, hsp, hd⟩ := spaces_of_mem (fun c hc => hs c (List.mem_cons_of_mem _ hc)) htail
      refine ⟨c :: sp, d, r, rfl, ?_, hd⟩
      rintro e (_ | ⟨_, he⟩)
      · exact hspace
      · exact hsp e he

theorem lang_fold_char {t : String} {d : Char} (ht : t.toList = [d]) (hd : unfolded d = [d, d])
    (h : ((lit t).comap fold).Lang s) : s = [d] := by
  have hmap := lang_fold_lit.1 h
  rw [ht, List.map_eq_singleton_iff] at hmap
  obtain ⟨c, rfl, hc⟩ := hmap
  rw [eq_of_fold hc hd]

theorem bearer_separator (h : bearer.separator.Lang s) : ∀ c ∈ s, c = '=' ∨ c = ':' ∨ Text.isSpace c = true := by
  intro c hc
  have hall := h.2 c hc
  simp only [Function.comp_apply, Bool.or_eq_true, beq_iff_eq, isSpace_fold] at hall
  rcases hall with (hall | hall) | hall
  · exact .inl (eq_of_fold hall (by decide))
  · exact .inr (.inl (eq_of_fold hall (by decide)))
  · exact .inr (.inr hall)

/-- **Every match of a named field has a sign behind the name**, but for a bearer's with spaces alone. -/
theorem signed_of_separator (hp : p ∈ NAMED) (h : p.separator.Lang s) (hs : '=' ∈ s ∨ ':' ∈ s) : Signed s := by
  simp only [NAMED, List.mem_cons, List.not_mem_nil, or_false] at hp
  rcases hp with rfl | rfl | rfl
  · obtain ⟨sp, d, r, rfl, hsp, hd⟩ := spaces_of_mem (bearer_separator h) hs
    exact ⟨[], sp, d, r, rfl, by simp, hsp, hd⟩
  · obtain ⟨q, _, rfl, hq, sp, _, rfl, hsp, d, r, rfl, hd, -⟩ := h
    rw [lang_fold_char (d := '"') rfl (by decide) hq, lang_fold_char (d := ':') rfl (by decide) hd]
    refine ⟨['"'], sp, ':', r, by simp, by simp, fun c hc => ?_, .inr rfl⟩
    rw [← isSpace_fold]
    exact hsp.2 c hc
  · rw [lang_fold_char (d := '=') rfl (by decide) h]
    exact ⟨[], [], '=', [], rfl, by simp, by simp, .inl rfl⟩

theorem opening_quotes (hp : p ∈ NAMED) {o : List Char} (h : p.opening.Lang o) : ∀ c ∈ o, c = '"' := by
  simp only [NAMED, List.mem_cons, List.not_mem_nil, or_false] at hp
  rcases hp with rfl | rfl | rfl
  · rw [show o = [] from h]
    simp
  · rw [lang_fold_char (d := '"') rfl (by decide) h]
    simp
  · rw [show o = [] from h]
    simp

theorem markerOf_named {o x : List Char} (ho : ∀ c ∈ o, c = '"') (hl : IsName l) : markerOf (o ++ (l ++ x)) = none := by
  cases o with
  | nil =>
    obtain ⟨c, r, rfl, hc⟩ := hl.head
    exact markerOf_initial c (List.mem_cons_of_mem _ hc) _
  | cons d o =>
    rw [ho d List.mem_cons_self]
    exact markerOf_initial _ List.mem_cons_self _

/-- **A recognised match of a named field is replaced by the name.** -/
theorem labelOf_named (hp : p ∈ NAMED) (h : p.Reads l s v raw) (hs : '=' ∈ s ∨ ':' ∈ s) :
    markerOf raw = none ∧ keyOf raw = l := by
  obtain ⟨hl, hsep, -, o, c, ho, -, rfl⟩ := h
  have hname := isName_of_label hp hl
  have hquotes := opening_quotes hp ho
  obtain ⟨b, sp, d, r, rfl, hb, hsp, hd⟩ := signed_of_separator hp hsep hs
  refine ⟨markerOf_named hquotes hname, ?_⟩
  have hkey := keyOf_named (r := r ++ (v ++ c)) hname hquotes hb hsp hd
  simp only [List.append_assoc, List.cons_append] at hkey ⊢
  exact hkey

/-! ## The replacement and the value -/

theorem mem_TOKEN_PATTERNS (hp : p ∈ TOKEN_PATTERNS) : p = slack ∨ p ∈ MARKED ∨ p ∈ NAMED := by
  have hsplit : TOKEN_PATTERNS = slack :: (MARKED ++ NAMED) := rfl
  rw [hsplit, List.mem_cons, List.mem_append] at hp
  exact hp

theorem mem_of_marked (hp : p = slack ∨ p ∈ MARKED ∨ p ∈ NAMED) : p ∈ TOKEN_PATTERNS := by
  have hsplit : TOKEN_PATTERNS = slack :: (MARKED ++ NAMED) := rfl
  rw [hsplit, List.mem_cons, List.mem_append]
  exact hp

theorem not_recognised_wide (h : lowered l = ['x', 'o', 'x', Char.ofNat 0x17F, '-']) (x : List Char) :
    markerOf (l ++ x) = none := by
  rw [markerOf_append _ x h]
  rfl

theorem slack_no_sign (h : slack.label.Lang l) : '=' ∉ l ∧ ':' ∉ l :=
  ⟨h.not_mem (by decide), h.not_mem (by decide)⟩

theorem IsName.sign_in_separator (hl : IsName l) (hr : Recognised (l ++ s)) : '=' ∈ s ∨ ':' ∈ s := by
  rcases hr with hr | hr | hr
  · rw [show l ++ s = [] ++ (l ++ s) from rfl, markerOf_named (by simp) hl] at hr
    cases hr
  · exact .inl ((List.mem_append.1 hr).resolve_left (hl.not_mem (by decide)))
  · exact .inr ((List.mem_append.1 hr).resolve_left (hl.not_mem (by decide)))

/-- **A recognised match is replaced by its label alone.** -/
theorem replacement_shown (hp : p ∈ TOKEN_PATTERNS) (h : p.Reads l s v raw) (hr : Recognised (l ++ s)) :
    replacement raw = shown l := by
  rcases mem_TOKEN_PATTERNS hp with rfl | hp | hp
  · obtain ⟨rfl, rfl⟩ := h.of_bare rfl rfl rfl
    rcases slack_marked h.1 with ⟨marker, -, hmarked, -⟩ | hwide
    · exact replacement_marked hmarked v
    · exfalso
      rw [List.append_nil] at hr
      have hnone := not_recognised_wide hwide []
      rw [List.append_nil] at hnone
      rcases hr with hr | hr | hr
      · rw [hnone] at hr
        cases hr
      · exact (slack_no_sign h.1).1 hr
      · exact (slack_no_sign h.1).2 hr
  · obtain ⟨marker, -, hmarked, -⟩ := marked_label hp h.1
    have hbare : p.opening = .empty ∧ p.separator = .empty ∧ p.closing = .empty := by
      simp only [MARKED, EXACT, List.mem_cons, List.not_mem_nil, or_false] at hp
      rcases hp with rfl | rfl | rfl | rfl | rfl <;> exact ⟨rfl, rfl, rfl⟩
    obtain ⟨-, rfl⟩ := h.of_bare hbare.1 hbare.2.1 hbare.2.2
    exact replacement_marked hmarked v
  · have hname := isName_of_label hp h.1
    obtain ⟨hmarker, hkey⟩ := labelOf_named hp h (hname.sign_in_separator hr)
    have hl : markerOf l = none := by
      have hnone := markerOf_named (o := []) (x := []) (by simp) hname
      rwa [List.nil_append, List.append_nil] at hnone
    unfold replacement shown
    rw [hmarker, hkey, hl]
    exact if_neg (List.length_pos_iff.1 hname.length.1)

theorem isAlphanum_ascii {c : Char} (h : c.isAlphanum = true) : c.toNat < 128 := by
  unfold Char.isAlphanum Char.isAlpha Char.isUpper Char.isLower Char.isDigit at h
  simp only [Bool.or_eq_true, Bool.and_eq_true, decide_eq_true_eq, ge_iff_le, UInt32.le_iff_toNat_le] at h
  change c.val.toNat < 128
  rcases h with (⟨-, h⟩ | ⟨-, h⟩) | ⟨-, h⟩ <;> exact Nat.lt_of_le_of_lt h (by decide)

theorem not_space_of_fold {c d : Char} (h : fold c = d) (hd : Text.isSpace d = false ∧ d ≠ '"') :
    Text.isSpace c = false ∧ c ≠ '"' := by
  subst h
  refine ⟨by rw [← isSpace_fold]; exact hd.1, ?_⟩
  rintro rfl
  exact hd.2 rfl

theorem not_space_of_alnumOr {others : List Char} (hothers : ∀ d ∈ others, Text.isSpace d = false ∧ d ≠ '"') {d : Char}
    (h : alnumOr others d = true) : Text.isSpace d = false ∧ d ≠ '"' := by
  unfold alnumOr at h
  rw [Bool.or_eq_true] at h
  rcases h with h | h
  · exact forall_ascii (p := fun d => d.isAlphanum = true → Text.isSpace d = false ∧ d ≠ '"') (by decide +kernel)
      (isAlphanum_ascii h) h
  · exact hothers d (List.contains_iff_mem.1 h)

theorem first_slack (c : Char) : slack.body.first c = (fold c == 'x') := by
  simp [slack, Credential.body, Credential.ignoreCase, Regex.first, Regex.comap, Regex.minLength, lit]

theorem last_slack (c : Char) : slack.body.last c = alnumOr ['-'] (fold c) := by
  simp [slack, Credential.body, Credential.ignoreCase, Regex.last, Regex.comap, Regex.minLength, lit]

theorem first_bearer (c : Char) : bearer.body.first c = (fold c == 'a' || fold c == 'b') := by
  simp [bearer, Credential.body, Credential.ignoreCase, Regex.first, Regex.comap, Regex.minLength, lit, oneOf]

theorem last_bearer (c : Char) : bearer.body.last c = alnumOr ['.', '_', '-'] (fold c) := by
  simp [bearer, Credential.body, Credential.ignoreCase, Regex.last, Regex.comap, Regex.minLength, lit, oneOf]

/-- **An unrecognised match is one of Slack's with the long s, or a bearer's with spaces alone.** -/
theorem of_unrecognised (hp : p ∈ TOKEN_PATTERNS) (hl : p.label.Lang l) (hs : p.separator.Lang s)
    (hr : ¬ Recognised (l ++ s)) : p = slack ∧ (∀ x, markerOf (l ++ x) = none) ∨
      p = bearer ∧ IsName l ∧ '=' ∉ s ∧ ':' ∉ s := by
  rcases mem_TOKEN_PATTERNS hp with rfl | hp | hp
  · rcases slack_marked hl with ⟨marker, -, hmarked, -⟩ | hwide
    · exact absurd (.inl (by rw [hmarked s]; rfl)) hr
    · exact .inl ⟨rfl, not_recognised_wide hwide⟩
  · obtain ⟨marker, -, hmarked, -⟩ := marked_label hp hl
    exact absurd (.inl (by rw [hmarked s]; rfl)) hr
  · have hname := isName_of_label hp hl
    have hno : '=' ∉ s ∧ ':' ∉ s :=
      ⟨fun h => hr (.inr (.inl (List.mem_append_right l h))), fun h => hr (.inr (.inr (List.mem_append_right l h)))⟩
    simp only [NAMED, List.mem_cons, List.not_mem_nil, or_false] at hp
    rcases hp with rfl | rfl | rfl
    · exact .inr ⟨rfl, hname, hno⟩
    · obtain ⟨q, _, rfl, -, sp, _, rfl, -, d, r, rfl, hd, -⟩ := hs
      rw [lang_fold_char (d := ':') rfl (by decide) hd] at hno
      exact absurd (by simp) hno.2
    · rw [lang_fold_char (d := '=') rfl (by decide) hs] at hno
      exact absurd List.mem_cons_self hno.1

theorem not_recognised_of_parts (hp : p ∈ TOKEN_PATTERNS) (h : p.Reads l s v raw) (hr : ¬ Recognised (l ++ s)) :
    ¬ Recognised raw := by
  have hbody : p.body.Lang raw := Credential.lang_body_iff.2 ⟨l, s, v, h⟩
  rcases of_unrecognised hp h.1 h.2.1 hr with ⟨rfl, hnone⟩ | ⟨rfl, hname, heq, hcolon⟩
  · obtain ⟨rfl, hraw⟩ := h.of_bare rfl rfl rfl
    rintro (hm | hm | hm)
    · rw [hraw, hnone] at hm
      cases hm
    · exact hbody.not_mem (by decide) hm
    · exact hbody.not_mem (by decide) hm
  · obtain ⟨hl, hs, hv, o, c, ho, hc, rfl⟩ := h
    rw [show o = [] from ho, show c = [] from hc, List.append_nil, List.nil_append]
    rintro (hm | hm | hm)
    · rw [show l ++ (s ++ v) = [] ++ (l ++ (s ++ v)) from rfl, markerOf_named (by simp) hname] at hm
      cases hm
    · rcases List.mem_append.1 hm with hm | hm
      · exact hname.not_mem (by decide) hm
      · exact (List.mem_append.1 hm).elim heq (hv.not_mem (by decide))
    · rcases List.mem_append.1 hm with hm | hm
      · exact hname.not_mem (by decide) hm
      · exact (List.mem_append.1 hm).elim hcolon (hv.not_mem (by decide))

/-- **An unrecognised match stays whole.** -/
theorem replacement_unrecognised (hp : p ∈ TOKEN_PATTERNS) (h : p.Reads l s v raw) (hr : ¬ Recognised (l ++ s)) :
    replacement raw = raw ++ '=' :: REDACTED := by
  have hbody : p.body.Lang raw := Credential.lang_body_iff.2 ⟨l, s, v, h⟩
  have hraw := not_recognised_of_parts hp h hr
  rcases of_unrecognised hp h.1 h.2.1 hr with ⟨rfl, -⟩ | ⟨rfl, -⟩
  · refine replacement_bare hraw ?_ ?_ ?_
    · rintro rfl
      exact absurd hbody.minLength_le (by decide)
    · intro c hc
      obtain ⟨r, rfl⟩ := List.head?_eq_some_iff.1 hc
      have hx := hbody.first
      rw [first_slack, beq_iff_eq] at hx
      exact not_space_of_fold hx (by decide)
    · intro c hc
      have hlast := hbody.last hc
      rw [last_slack] at hlast
      exact not_space_of_fold rfl (not_space_of_alnumOr (by decide) hlast)
  · refine replacement_bare hraw ?_ ?_ ?_
    · rintro rfl
      exact absurd hbody.minLength_le (by decide)
    · intro d hd
      obtain ⟨r, rfl⟩ := List.head?_eq_some_iff.1 hd
      have hx := hbody.first
      rw [first_bearer, Bool.or_eq_true, beq_iff_eq, beq_iff_eq] at hx
      rcases hx with hx | hx <;> exact not_space_of_fold hx (by decide)
    · intro d hd
      have hlast := hbody.last hd
      rw [last_bearer] at hlast
      exact not_space_of_fold rfl (not_space_of_alnumOr (by decide) hlast)

theorem lang_replicate {cls : Char → Bool} {least n : Nat} {c : Char} (hn : least ≤ n) (hc : cls c = true) :
    (Regex.many cls least).Lang (List.replicate n c) := by
  refine ⟨by rwa [List.length_replicate], fun d hd => ?_⟩
  rw [List.eq_of_mem_replicate hd]
  exact hc

/-- **The replacement is the same for every value** exactly where the match is recognised by its label and separator. -/
theorem valueFree_iff (hp : p ∈ TOKEN_PATTERNS) (hl : p.label.Lang l) (hs : p.separator.Lang s) :
    (∀ v v' raw raw', p.Reads l s v raw → p.Reads l s v' raw' → replacement raw = replacement raw') ↔
      Recognised (l ++ s) := by
  constructor
  · intro h
    by_contra hr
    have hvalue : ∀ c ∈ ['a', 'b'], p.Reads l s (List.replicate 12 c) (l ++ (s ++ List.replicate 12 c)) := by
      intro c hc
      have hlang : p.value.Lang (List.replicate 12 c) ∧ p.opening.Lang [] ∧ p.closing.Lang [] := by
        have halnum : ∀ others, alnumOr others (fold c) = true := by
          intro others
          simp only [List.mem_cons, List.not_mem_nil, or_false] at hc
          rcases hc with rfl | rfl <;> rfl
        rcases of_unrecognised hp hl hs hr with ⟨rfl, -⟩ | ⟨rfl, -⟩
        · exact ⟨lang_replicate (by decide) (halnum _), rfl, rfl⟩
        · exact ⟨lang_replicate (by decide) (halnum _), rfl, rfl⟩
      exact ⟨hl, hs, hlang.1, [], [], hlang.2.1, hlang.2.2, by simp⟩
    have ha := hvalue 'a' (by decide)
    have hb := hvalue 'b' (by decide)
    have heq := h _ _ _ _ ha hb
    rw [replacement_unrecognised hp ha hr, replacement_unrecognised hp hb hr] at heq
    have hcut := List.append_cancel_left (List.append_cancel_left (List.append_cancel_right heq))
    exact absurd hcut (by decide)
  · intro hr v v' raw raw' h h'
    rw [replacement_shown hp h hr, replacement_shown hp h' hr]

end Redaction
end SafeSend
