import Mathlib.Data.List.TakeWhile
import SafeSend.Lib.Urlencoded
import SafeSend.Paging.Cursor
import SafeSend.Utf8
/-!
# URLs

`urlsplit`, `urlunsplit`, `urlencode` and `parse_qsl`.  A URL that was put together from parts that a URL was split into
splits into them again, and a query string says what it was made of.
-/
namespace SafeSend
namespace Urls

open Lib
open Text (Bytes Pending)

/-! ## Query strings -/

/-- The decoder's `errors="replace"`: a mark for a sequence that is cut off, and for a byte that begins none. -/
def marks (st : Option Pending) (b : Nat) : List Char :=
  (if st.any fun p => !decide (p.lo ≤ b ∧ b ≤ p.hi) then ['\uFFFD'] else []) ++
    match Text.feed st b with
    | (none, none) => ['\uFFFD']
    | _ => []

def replaceFrom : Option Pending → Bytes → List Char
  | none, [] => []
  | some _, [] => ['\uFFFD']
  | st, b :: l =>
    let r := Text.feed st b.toNat
    marks st b.toNat ++ r.1.toList ++ replaceFrom r.2 l

/-- `raw.decode("utf-8", errors="replace")`. -/
def decodeReplace (raw : Bytes) : String := String.ofList (replaceFrom none raw)

/-- `urlencode(params)`. -/
def urlencode (params : List (String × String)) : List Char :=
  Urlencoded.encode (params.map fun p => (Text.encode p.1, Text.encode p.2))

/-- `parse_qsl(query, keep_blank_values=True)`. -/
def parseQsl (query : List Char) : List (String × String) :=
  (Urlencoded.parse query).map fun f => (decodeReplace f.1, decodeReplace f.2)

theorem marks_nil {st : Option Pending} {b : Nat} (hb : Text.Goes st b) (hf : Text.feed st b ≠ (none, none)) :
    marks st b = [] := by
  have hrange : (st.any fun p => !decide (p.lo ≤ b ∧ b ≤ p.hi)) = false := by
    cases st with
    | none => rfl
    | some p =>
      have hin : p.lo ≤ b ∧ b ≤ p.hi := hb
      rw [Option.any_some, decide_eq_true hin]
      rfl
  unfold marks
  rw [hrange, if_neg Bool.false_ne_true, List.nil_append]
  split
  next h => exact absurd h hf
  next => rfl

theorem replaceFrom_cons (st : Option Pending) (b : UInt8) (l : Bytes) : replaceFrom st (b :: l) =
    marks st b.toNat ++ (Text.feed st b.toNat).1.toList ++ replaceFrom (Text.feed st b.toNat).2 l := by
  cases st <;> rfl

/-- **The bytes that spell a character are read as it**, and what follows is read afresh. -/
theorem replaceFrom_spells {st : Option Pending} {l : Bytes} {c : Char} (h : Text.Spells st l c) (rest : Bytes) :
    replaceFrom st (l ++ rest) = c :: replaceFrom none rest := by
  induction h with
  | last hb h =>
    rw [List.singleton_append, replaceFrom_cons, marks_nil hb (by rw [h]; exact fun he => by cases he), h]
    rfl
  | more hb h hl ih =>
    rw [List.cons_append, replaceFrom_cons, marks_nil hb (by rw [h]; exact fun he => by cases he), h]
    exact ih

theorem decodeReplace_encode (s : String) : decodeReplace (Text.encode s) = s := by
  have hread : ∀ l : List Char, replaceFrom none (l.flatMap Text.encodeChar) = l := by
    intro l
    induction l with
    | nil => rfl
    | cons c l ih => rw [List.flatMap_cons, replaceFrom_spells (Text.spells_encodeChar c), ih]
  unfold decodeReplace Text.encode
  rw [hread, String.ofList_toList]

/-- **A query string says what it was made of.** -/
theorem parseQsl_urlencode (params : List (String × String)) : parseQsl (urlencode params) = params := by
  unfold parseQsl urlencode
  rw [Urlencoded.parse_encode, List.map_map]
  refine (List.map_congr_left fun p _ => ?_).trans (List.map_id _)
  exact Prod.ext (decodeReplace_encode p.1) (decodeReplace_encode p.2)

/-! ## Parts -/

structure SplitResult where
  scheme : List Char
  netloc : List Char
  path : List Char
  query : List Char
  fragment : List Char
  deriving DecidableEq, Repr

/-- Not one of `_UNSAFE_URL_BYTES_TO_REMOVE`. -/
def kept (c : Char) : Bool := c ≠ '\t' && c ≠ '\r' && c ≠ '\n'

/-- Leading controls and blanks go, and tabs and line breaks wherever they are. -/
def stripped (url : List Char) : List Char := (url.dropWhile fun c => c.toNat ≤ 0x20).filter kept

def schemeChar (c : Char) : Bool := c.isAlphanum || c == '+' || c == '-' || c == '.'

def isScheme (l : List Char) : Bool := l.head?.any Char.isAlpha && l.all schemeChar

def splitScheme (url : List Char) : List Char × List Char :=
  match url.dropWhile (· ≠ ':') with
  | [] => ([], url)
  | _ :: rest =>
    let scheme := url.takeWhile (· ≠ ':')
    if isScheme scheme then (scheme.map Char.toLower, rest) else ([], url)

/-- `/`, `?` or `#`, which end the network location. -/
def delim (c : Char) : Bool := c == '/' || c == '?' || c == '#'

def splitNetloc : List Char → List Char × List Char
  | '/' :: '/' :: rest => (rest.takeWhile fun c => !delim c, rest.dropWhile fun c => !delim c)
  | url => ([], url)

/-- `accepts` is what the brackets, the address in them and the normal form of a network location are checked for; where
it fails, `ValueError` is raised. -/
def urlsplit (accepts : List Char → Bool) (url : List Char) : Option SplitResult :=
  let (scheme, rest) := splitScheme (stripped url)
  let (netloc, rest) := splitNetloc rest
  let (rest, fragment) := Paging.partition '#' rest
  let (path, query) := Paging.partition '?' rest
  if accepts netloc then some ⟨scheme, netloc, path, query, fragment⟩ else none

def USES_NETLOC : List String := ["", "ftp", "http", "gopher", "nntp", "telnet", "imap", "wais", "file", "mms", "https",
  "shttp", "snews", "prospero", "rtsp", "rtsps", "rtspu", "rsync", "svn", "svn+ssh", "sftp", "nfs", "git", "git+ssh",
  "ws", "wss", "itms-services"]

def located (p : SplitResult) : List Char :=
  if !p.netloc.isEmpty then
    '/' :: '/' :: (p.netloc ++ if p.path.isEmpty || p.path.head? == some '/' then p.path else '/' :: p.path)
  else if p.path.take 2 == ['/', '/'] then '/' :: '/' :: p.path
  else if !p.scheme.isEmpty && USES_NETLOC.contains (String.ofList p.scheme) &&
      (p.path.isEmpty || p.path.head? == some '/') then '/' :: '/' :: p.path
  else p.path

def urlunsplit (p : SplitResult) : List Char :=
  (if p.scheme.isEmpty then [] else p.scheme ++ [':']) ++ located p ++
    (if p.query.isEmpty then [] else '?' :: p.query) ++ if p.fragment.isEmpty then [] else '#' :: p.fragment

/-! ## Parts of a URL -/

/-- What the parts a URL was split into are like. -/
structure Parts (p : SplitResult) : Prop where
  scheme : p.scheme = [] ∨ isScheme p.scheme = true ∧ p.scheme.map Char.toLower = p.scheme
  netloc : ∀ c ∈ p.netloc, delim c = false
  path : ∀ c ∈ p.path, c ≠ '#' ∧ c ≠ '?'
  absolute : p.netloc ≠ [] → p.path = [] ∨ p.path.head? = some '/'
  query : '#' ∉ p.query
  kept : (p.netloc ++ p.path ++ p.query ++ p.fragment).all kept = true

theorem Parts.withQuery {p : SplitResult} (h : Parts p) {query : List Char} (hq : ∀ c ∈ query, 0x20 < c.toNat ∧ c ≠ '#') :
    Parts { p with query := query } := by
  have hkept : ∀ c : Char, 0x20 < c.toNat → Urls.kept c = true := by
    intro c hc
    have hne : ∀ d : Char, d.toNat ≤ 0x20 → c ≠ d := fun d hd he => Nat.lt_irrefl _ (Nat.lt_of_lt_of_le (he ▸ hc) hd)
    unfold Urls.kept
    rw [decide_eq_true (hne '\t' (by decide)), decide_eq_true (hne '\r' (by decide)), decide_eq_true (hne '\n' (by decide))]
    rfl
  refine ⟨h.scheme, h.netloc, h.path, h.absolute, fun hmem => (hq _ hmem).2 rfl, ?_⟩
  have hall := List.all_eq_true.1 h.kept
  refine List.all_eq_true.2 fun c hc => ?_
  simp only [List.mem_append] at hc hall
  rcases hc with ((hc | hc) | hc) | hc
  · exact hall c (.inl (.inl (.inl hc)))
  · exact hall c (.inl (.inl (.inr hc)))
  · exact hkept c (hq c hc).1
  · exact hall c (.inr hc)

/-- What is put on a URL behind its mark, where there is anything. -/
def tail (c : Char) (l : List Char) : List Char := if l.isEmpty then [] else c :: l

theorem partition_tail {c : Char} {l : List Char} (hl : c ∉ l) (r : List Char) : Paging.partition c (l ++ tail c r) = (l, r) := by
  cases r with
  | nil =>
    have hall : ∀ d ∈ l, (d ≠ c : Bool) = true := fun d hd => decide_eq_true fun he => hl (he ▸ hd)
    show Paging.partition c (l ++ []) = _
    unfold Paging.partition
    rw [List.takeWhile_append_of_pos hall, List.dropWhile_append_of_pos hall]
    exact congrArg (·, _) (List.append_nil l)
  | cons d r => exact Paging.partition_append hl (d :: r)

theorem mem_tail {c d : Char} {l : List Char} (h : d ∈ tail c l) : d = c ∨ d ∈ l := by
  unfold tail at h
  split at h
  next => cases h
  next => exact List.mem_cons.1 h

theorem urlunsplit_eq {p : SplitResult} (h : Parts p) (hn : p.netloc ≠ []) : urlunsplit p =
    (if p.scheme.isEmpty then [] else p.scheme ++ [':']) ++
      ('/' :: '/' :: (p.netloc ++ (p.path ++ tail '?' p.query ++ tail '#' p.fragment))) := by
  have hlocated : located p = '/' :: '/' :: (p.netloc ++ p.path) := by
    have hpath : (p.path.isEmpty || p.path.head? == some '/') = true := by
      rcases h.absolute hn with hp | hp
      · rw [hp]
        rfl
      · rw [hp, beq_self_eq_true, Bool.or_true]
    unfold located
    rw [List.isEmpty_eq_false_iff.2 hn, hpath]
    rfl
  unfold urlunsplit
  rw [hlocated]
  simp only [tail, List.append_assoc, List.cons_append]

theorem schemeChar_ascii {c : Char} (h : schemeChar c = true) : c.toNat < 128 := by
  unfold schemeChar Char.isAlphanum Char.isAlpha Char.isUpper Char.isLower Char.isDigit at h
  have hv : c.toNat = c.val.toNat := rfl
  simp only [Bool.or_eq_true, Bool.and_eq_true, decide_eq_true_eq, beq_iff_eq, ge_iff_le, UInt32.le_iff_toNat_le] at h
  rcases h with ((((⟨-, h⟩ | ⟨-, h⟩) | ⟨-, h⟩) | rfl) | rfl) | rfl
  · exact hv ▸ Nat.lt_of_le_of_lt h (by decide)
  · exact hv ▸ Nat.lt_of_le_of_lt h (by decide)
  · exact hv ▸ Nat.lt_of_le_of_lt h (by decide)
  · decide
  · decide
  · decide

/-- A letter of a scheme is no colon, is kept, and has a lower case that is one too. -/
theorem schemeChar_plain {c : Char} (h : schemeChar c = true) : (c ≠ ':' ∧ kept c = true ∧ ¬ c.toNat ≤ 0x20) ∧
    schemeChar c.toLower = true ∧ c.toLower.toLower = c.toLower ∧ c.toLower.isAlpha = c.isAlpha := by
  have hall : ∀ n, n < 128 → schemeChar (Char.ofNat n) = true →
      (Char.ofNat n ≠ ':' ∧ kept (Char.ofNat n) = true ∧ ¬ (Char.ofNat n).toNat ≤ 0x20) ∧
        schemeChar (Char.ofNat n).toLower = true ∧ (Char.ofNat n).toLower.toLower = (Char.ofNat n).toLower ∧
          (Char.ofNat n).toLower.isAlpha = (Char.ofNat n).isAlpha := by decide +kernel
  have hc := hall c.toNat (schemeChar_ascii h)
  rw [Char.ofNat_toNat] at hc
  exact hc h

theorem isScheme_chars {l : List Char} (h : isScheme l = true) : ∀ c ∈ l, schemeChar c = true :=
  List.all_eq_true.1 (Bool.and_eq_true_iff.1 h).2

theorem isScheme_lower {l : List Char} (h : isScheme l = true) :
    isScheme (l.map Char.toLower) = true ∧ (l.map Char.toLower).map Char.toLower = l.map Char.toLower := by
  have hchars := isScheme_chars h
  refine ⟨Bool.and_eq_true_iff.2 ⟨?_, List.all_eq_true.2 fun c hc => ?_⟩, ?_⟩
  · have hhead := (Bool.and_eq_true_iff.1 h).1
    cases l with
    | nil => cases hhead
    | cons c l => exact (schemeChar_plain (hchars c List.mem_cons_self)).2.2.2.trans hhead
  · obtain ⟨d, hd, rfl⟩ := List.mem_map.1 hc
    exact (schemeChar_plain (hchars d hd)).2.1
  · rw [List.map_map]
    exact List.map_congr_left fun c hc => (schemeChar_plain (hchars c hc)).2.2.1

theorem splitScheme_prefix {scheme : List Char} (h : isScheme scheme = true) (rest : List Char) :
    splitScheme (scheme ++ ':' :: rest) = (scheme.map Char.toLower, rest) := by
  have hall : ∀ c ∈ scheme, (c ≠ ':' : Bool) = true := fun c hc =>
    decide_eq_true (schemeChar_plain (isScheme_chars h c hc)).1.1
  unfold splitScheme
  rw [List.dropWhile_append_of_pos hall, List.takeWhile_append_of_pos hall, List.dropWhile_cons_of_neg (by simp),
    List.takeWhile_cons_of_neg (by simp), List.append_nil]
  exact if_pos h

theorem splitScheme_none (rest : List Char) : splitScheme ('/' :: rest) = ([], '/' :: rest) := by
  unfold splitScheme
  split
  next => rfl
  next =>
    refine if_neg ?_
    rw [List.takeWhile_cons_of_pos (by decide)]
    exact fun h => by cases (Bool.and_eq_true_iff.1 h).1

theorem splitNetloc_append {netloc rest : List Char} (hn : ∀ c ∈ netloc, delim c = false)
    (hrest : rest = [] ∨ ∃ c l, rest = c :: l ∧ delim c = true) :
    splitNetloc ('/' :: '/' :: (netloc ++ rest)) = (netloc, rest) := by
  have hall : ∀ c ∈ netloc, (!delim c) = true := fun c hc => by rw [hn c hc]; rfl
  show (List.takeWhile (fun c => !delim c) (netloc ++ rest), List.dropWhile (fun c => !delim c) (netloc ++ rest)) = _
  rw [List.takeWhile_append_of_pos hall, List.dropWhile_append_of_pos hall]
  rcases hrest with rfl | ⟨c, l, rfl, hc⟩
  · exact congrArg (·, _) (List.append_nil netloc)
  · rw [List.takeWhile_cons_of_neg (by rw [hc]; exact Bool.false_ne_true),
      List.dropWhile_cons_of_neg (by rw [hc]; exact Bool.false_ne_true), List.append_nil]

theorem tail_delim {c : Char} (hc : delim c = true) (l : List Char) :
    tail c l = [] ∨ ∃ d m, tail c l = d :: m ∧ delim d = true := by
  cases l with
  | nil => exact .inl rfl
  | cons d m => exact .inr ⟨c, d :: m, rfl, hc⟩

theorem stripped_eq {c : Char} {l : List Char} (hc : ¬ c.toNat ≤ 0x20) (h : (c :: l).all kept = true) :
    stripped (c :: l) = c :: l := by
  unfold stripped
  rw [List.dropWhile_cons_of_neg (by simpa using hc)]
  exact List.filter_eq_self.2 (List.all_eq_true.1 h)

theorem splitScheme_stripped {s : List Char} (hs : isScheme s = true) (rest : List Char) :
    splitScheme (stripped (s ++ ':' :: rest)) = (s.map Char.toLower, rest.filter kept) := by
  have hchars := isScheme_chars hs
  have hstripped : stripped (s ++ ':' :: rest) = s ++ ':' :: rest.filter kept := by
    cases s with
    | nil => cases hs
    | cons c s =>
      unfold stripped
      have hblank := (schemeChar_plain (hchars c List.mem_cons_self)).1.2.2
      have hkept : (c :: s).filter kept = c :: s :=
        List.filter_eq_self.2 fun d hd => (schemeChar_plain (hchars d hd)).1.2.1
      have hcolon : kept ':' = true := by decide
      rw [List.cons_append, List.dropWhile_cons_of_neg (by simpa using hblank), ← List.cons_append, List.filter_append,
        hkept, List.filter_cons_of_pos hcolon]
  rw [hstripped, splitScheme_prefix hs]

/-- **A URL put together from such parts splits into them again.** -/
theorem urlsplit_urlunsplit {accepts : List Char → Bool} {p : SplitResult} (h : Parts p) (hn : p.netloc ≠ [])
    (hok : accepts p.netloc = true) : urlsplit accepts (urlunsplit p) = some p := by
  have hrest : (p.netloc ++ (p.path ++ tail '?' p.query ++ tail '#' p.fragment)).all kept = true := by
    have hkept := List.all_eq_true.1 h.kept
    refine List.all_eq_true.2 fun c hc => ?_
    simp only [List.mem_append] at hc hkept
    rcases hc with hc | ((hc | hc) | hc)
    · exact hkept c (.inl (.inl (.inl hc)))
    · exact hkept c (.inl (.inl (.inr hc)))
    · rcases mem_tail hc with rfl | hc
      · decide
      · exact hkept c (.inl (.inr hc))
    · rcases mem_tail hc with rfl | hc
      · decide
      · exact hkept c (.inr hc)
  have hscheme : splitScheme (stripped (urlunsplit p)) =
      (p.scheme, '/' :: '/' :: (p.netloc ++ (p.path ++ tail '?' p.query ++ tail '#' p.fragment))) := by
    rw [urlunsplit_eq h hn]
    generalize p.netloc ++ (p.path ++ tail '?' p.query ++ tail '#' p.fragment) = rest at hrest
    rcases h.scheme with hs | ⟨hs, hlower⟩
    · rw [hs]
      show splitScheme (stripped ('/' :: '/' :: rest)) = _
      rw [stripped_eq (by decide) (by rw [List.all_cons, List.all_cons, hrest]; decide), splitScheme_none]
    · have hne : p.scheme ≠ [] := fun h => by
        rw [h] at hs
        cases hs
      have hall : ('/' :: '/' :: rest).all kept = true := by
        rw [List.all_cons, List.all_cons, hrest]
        decide
      rw [List.isEmpty_eq_false_iff.2 hne, if_neg Bool.false_ne_true, List.append_assoc, List.singleton_append,
        splitScheme_stripped hs, hlower, List.filter_eq_self.2 (List.all_eq_true.1 hall)]
  have hnetloc : splitNetloc ('/' :: '/' :: (p.netloc ++ (p.path ++ tail '?' p.query ++ tail '#' p.fragment))) =
      (p.netloc, p.path ++ tail '?' p.query ++ tail '#' p.fragment) := by
    refine splitNetloc_append h.netloc ?_
    rcases h.absolute hn with hp | hp
    · rw [hp, List.nil_append]
      rcases tail_delim (c := '?') (by decide) p.query with hq | ⟨d, m, hq, hd⟩
      · rw [hq]
        exact tail_delim (by decide) p.fragment
      · rw [hq]
        exact .inr ⟨d, _, rfl, hd⟩
    · cases hpath : p.path with
      | nil =>
        rw [hpath] at hp
        cases hp
      | cons d m =>
        rw [hpath] at hp
        exact .inr ⟨d, _, rfl, Option.some.inj hp ▸ by decide⟩
  have hmark : '#' ∉ p.path ++ tail '?' p.query := by
    intro hmem
    rcases List.mem_append.1 hmem with hmem | hmem
    · exact (h.path _ hmem).1 rfl
    · rcases mem_tail hmem with he | hmem
      · cases he
      · exact h.query hmem
  unfold urlsplit
  rw [hscheme]
  dsimp only
  rw [hnetloc]
  dsimp only
  rw [partition_tail hmark]
  dsimp only
  rw [partition_tail fun hmem => (h.path _ hmem).2 rfl]
  dsimp only
  rw [hok]
  rfl

/-- The scheme a URL begins with says nothing about its other parts. -/
theorem urlsplit_rescheme {s s' : List Char} (hs : isScheme s = true) (hs' : isScheme s' = true) {accepts : List Char → Bool}
    (rest : List Char) : urlsplit accepts (s ++ ':' :: rest) =
      (urlsplit accepts (s' ++ ':' :: rest)).map fun p => { p with scheme := s.map Char.toLower } := by
  unfold urlsplit
  rw [splitScheme_stripped hs, splitScheme_stripped hs']
  dsimp only
  split
  next => rfl
  next => rfl

/-! ## What a URL splits into -/

theorem partition_spec (c : Char) (l : List Char) : c ∉ (Paging.partition c l).1 ∧
    (∀ d ∈ (Paging.partition c l).1, d ∈ l) ∧ (∀ d ∈ (Paging.partition c l).2, d ∈ l) ∧
      ((Paging.partition c l).1 = [] ∨ (Paging.partition c l).1.head? = l.head?) := by
  unfold Paging.partition
  refine ⟨fun h => ?_, fun d hd => (List.takeWhile_sublist _).subset hd, fun d hd => ?_, ?_⟩
  · exact of_decide_eq_true (List.mem_takeWhile_imp (p := fun d => decide (d ≠ c)) h) rfl
  · exact (List.dropWhile_sublist _).subset ((List.drop_sublist _ _).subset hd)
  · cases l with
    | nil => exact .inl rfl
    | cons d l =>
      rw [List.takeWhile_cons]
      split
      next => exact .inr rfl
      next => exact .inl rfl

theorem splitScheme_spec (url : List Char) :
    ((splitScheme url).1 = [] ∨ isScheme (splitScheme url).1 = true ∧
      (splitScheme url).1.map Char.toLower = (splitScheme url).1) ∧ ∀ c ∈ (splitScheme url).2, c ∈ url := by
  unfold splitScheme
  split
  next => exact ⟨.inl rfl, fun c hc => hc⟩
  next d rest hrest =>
    dsimp only
    split
    next hs =>
      refine ⟨.inr (isScheme_lower hs), fun c hc => (List.dropWhile_sublist (· ≠ ':')).subset ?_⟩
      rw [hrest]
      exact List.mem_cons_of_mem _ hc
    next => exact ⟨.inl rfl, fun c hc => hc⟩

theorem splitNetloc_spec (url : List Char) : (∀ c ∈ (splitNetloc url).1, delim c = false) ∧
    (∀ c ∈ (splitNetloc url).1, c ∈ url) ∧ (∀ c ∈ (splitNetloc url).2, c ∈ url) ∧
      ((splitNetloc url).1 ≠ [] → ∀ c ∈ (splitNetloc url).2.head?, delim c = true) := by
  unfold splitNetloc
  split
  next rest =>
    refine ⟨fun c hc => ?_, fun c hc => ?_, fun c hc => ?_, fun _ c hc => ?_⟩
    · exact Bool.not_eq_true' _ ▸ List.mem_takeWhile_imp (p := fun c => !delim c) hc
    · exact List.mem_cons_of_mem _ (List.mem_cons_of_mem _ ((List.takeWhile_sublist _).subset hc))
    · exact List.mem_cons_of_mem _ (List.mem_cons_of_mem _ ((List.dropWhile_sublist _).subset hc))
    · have hstop := List.head?_dropWhile_not (fun c => !delim c) rest
      rw [Option.mem_def.1 hc] at hstop
      simpa using hstop
  next => exact ⟨(fun _ hc => by cases hc), (fun _ hc => by cases hc), fun _ hc => hc, fun h => absurd rfl h⟩

/-- **Whatever a URL splits into are such parts.** -/
theorem urlsplit_parts {accepts : List Char → Bool} {url : List Char} {p : SplitResult}
    (h : urlsplit accepts url = some p) : Parts p ∧ accepts p.netloc = true := by
  unfold urlsplit at h
  dsimp only at h
  split at h
  next hok =>
    cases h
    obtain ⟨hscheme, hurl⟩ := splitScheme_spec (stripped url)
    obtain ⟨hnetloc, hnetlocMem, hrestMem, hstop⟩ := splitNetloc_spec (splitScheme (stripped url)).2
    generalize hrest : (splitNetloc (splitScheme (stripped url)).2).2 = rest at hrestMem hstop ⊢
    obtain ⟨hhash, hfrontMem, hfragment, hfront⟩ := partition_spec '#' rest
    obtain ⟨hmark, hpathMem, hqueryMem, hpath⟩ := partition_spec '?' (Paging.partition '#' rest).1
    have hkept : ∀ c ∈ stripped url, kept c = true := fun c hc => (List.mem_filter.1 hc).2
    refine ⟨⟨hscheme, hnetloc, fun c hc => ⟨?_, ?_⟩, fun hn => ?_, fun hc => hhash (hqueryMem _ hc), ?_⟩, hok⟩
    · rintro rfl
      exact hhash (hpathMem _ hc)
    · rintro rfl
      exact hmark hc
    · -- the path begins where the network location stopped, and no mark of another part is in it
      rcases hpath with hpath | hpath
      · exact .inl hpath
      · rcases hfront with hfront | hfront
        · rw [hfront] at hpath ⊢
          exact .inl rfl
        · cases hp : (Paging.partition '?' (Paging.partition '#' rest).1).1 with
          | nil => exact .inl rfl
          | cons c l =>
            rw [hp] at hpath hmark
            have hhead : rest.head? = some c := hfront.symm.trans hpath.symm
            have hdelim := hstop hn c hhead
            have hne : c ≠ '#' := fun he => hhash (he ▸ hpathMem c (hp ▸ List.mem_cons_self))
            have hne' : c ≠ '?' := fun he => hmark (he ▸ List.mem_cons_self)
            unfold delim at hdelim
            simp only [Bool.or_eq_true, beq_iff_eq, hne, hne', or_false] at hdelim
            exact .inr (congrArg some hdelim)
    · refine List.all_eq_true.2 fun c hc => ?_
      simp only [List.mem_append] at hc
      rcases hc with ((hc | hc) | hc) | hc
      · exact hkept c (hurl c (hnetlocMem c hc))
      · exact hkept c (hurl c (hrestMem c (hfrontMem c (hpathMem c hc))))
      · exact hkept c (hurl c (hrestMem c (hfrontMem c (hqueryMem c hc))))
      · exact hkept c (hurl c (hrestMem c (hfragment c hc)))
  next => cases h

end Urls
end SafeSend
