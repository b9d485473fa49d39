import Mathlib.Data.Nat.Digits.Defs
import SafeSend.Lib.Numerals
/-!
# JSON text

`json.dumps` of one flat object, everything outside printable ASCII escaped and no blank between the tokens; and a reader
of what it writes.  An escape is a UTF-16 code unit: a character beyond the first plane takes two, which the reader puts
together again.
-/
namespace Lib
namespace JsonText

inductive Scalar
  | str (s : List Char)
  | int (n : Int)
  | bool (b : Bool)
  deriving DecidableEq, Repr

/-! ## Writing -/

def unitEscape (u : Nat) : List Char := '\\' :: 'u' :: numeral 16 4 u

/-- A character inside a string. -/
def escape (c : Char) : List Char :=
  let n := c.toNat
  if n = 34 then ['\\', '"']
  else if n = 92 then ['\\', '\\']
  else if n = 10 then ['\\', 'n']
  else if n = 13 then ['\\', 'r']
  else if n = 9 then ['\\', 't']
  else if n = 12 then ['\\', 'f']
  else if n = 8 then ['\\', 'b']
  else if 32 ≤ n ∧ n ≤ 126 then [c]
  else if n < 0x10000 then unitEscape n
  else unitEscape (0xD800 + (n - 0x10000) / 1024) ++ unitEscape (0xDC00 + (n - 0x10000) % 1024)

def quoted (s : List Char) : List Char := '"' :: (s.flatMap escape ++ ['"'])

def decimal (n : Int) : List Char :=
  if n < 0 then '-' :: Nat.toDigits 10 n.natAbs else Nat.toDigits 10 n.natAbs

def Scalar.dump : Scalar → List Char
  | str s => quoted s
  | int n => decimal n
  | bool true => "true".toList
  | bool false => "false".toList

abbrev Fields := List (List Char × Scalar)

def field (f : List Char × Scalar) : List Char := quoted f.1 ++ ':' :: f.2.dump

/-- The fields, each but the first after a comma, and the closing brace. -/
def moreFields : Fields → List Char
  | [] => ['}']
  | f :: fields => ',' :: (field f ++ moreFields fields)

def dumps : Fields → List Char
  | [] => ['{', '}']
  | f :: fields => '{' :: (field f ++ moreFields fields)

/-! ## Reading -/

/-- What follows a backslash. -/
def readEscape : List Char → Option (Nat × List Char)
  | [] => none
  | c :: l =>
    if c = 'u' then readNumeral 16 4 0 l
    else if c = '"' then some (34, l)
    else if c = '\\' then some (92, l)
    else if c = '/' then some (47, l)
    else if c = 'n' then some (10, l)
    else if c = 'r' then some (13, l)
    else if c = 't' then some (9, l)
    else if c = 'f' then some (12, l)
    else if c = 'b' then some (8, l)
    else none

/-- The code units of a string, up to its closing quote. -/
def readUnits : Nat → List Char → Option (List Nat × List Char)
  | 0, _ => none
  | _ + 1, [] => none
  | fuel + 1, c :: l =>
    if c = '"' then some ([], l)
    else if c = '\\' then
      (readEscape l).bind fun (u, l) => (readUnits fuel l).map fun (us, l) => (u :: us, l)
    else if c.toNat < 32 then none
    else (readUnits fuel l).map fun (us, l) => (c.toNat :: us, l)

/-- The characters of code units: a surrogate is half of one. -/
def joinUnits : List Nat → Option (List Char)
  | [] => some []
  | u :: us =>
    if u.isValidChar then (joinUnits us).map (Char.ofNat u :: ·)
    else
      match us with
      | [] => none
      | v :: us =>
        if 0xD800 ≤ u ∧ u < 0xDC00 ∧ 0xDC00 ≤ v ∧ v < 0xE000 then
          (joinUnits us).map (Char.ofNat (0x10000 + (u - 0xD800) * 1024 + (v - 0xDC00)) :: ·)
        else none

def readString : List Char → Option (List Char × List Char)
  | [] => none
  | c :: l =>
    if c = '"' then
      (readUnits (l.length + 1) l).bind fun (us, l) => (joinUnits us).map fun s => (s, l)
    else none

def readDigits (l : List Char) : Option (Nat × List Char) :=
  match l.takeWhile Char.isDigit with
  | [] => none
  | ds => some (Nat.ofDigitChars 10 ds 0, l.dropWhile Char.isDigit)

def readInt : List Char → Option (Int × List Char)
  | [] => none
  | c :: l =>
    if c = '-' then (readDigits l).map fun (n, l) => (-n, l) else (readDigits (c :: l)).map fun (n, l) => (n, l)

/-- `rest` of a word, and the value it spells. -/
def readWord (rest : String) (value : Scalar) (l : List Char) : Option (Scalar × List Char) :=
  if rest.toList.isPrefixOf l then some (value, l.drop rest.toList.length) else none

def readScalar : List Char → Option (Scalar × List Char)
  | [] => none
  | c :: l =>
    if c = '"' then (readString (c :: l)).map fun (s, l) => (.str s, l)
    else if c = 't' then readWord "rue" (.bool true) l
    else if c = 'f' then readWord "alse" (.bool false) l
    else (readInt (c :: l)).map fun (n, l) => (.int n, l)

def readField (l : List Char) : Option ((List Char × Scalar) × List Char) :=
  (readString l).bind fun (key, l) =>
    match l with
    | [] => none
    | c :: l => if c = ':' then (readScalar l).map fun (value, l) => ((key, value), l) else none

/-- The rest of an object, to the end of the text. -/
def readMore : Nat → List Char → Option Fields
  | 0, _ => none
  | _ + 1, [] => none
  | fuel + 1, c :: l =>
    if c = ',' then (readField l).bind fun (f, l) => (readMore fuel l).map (f :: ·)
    else if c :: l = ['}'] then some []
    else none

def loads : List Char → Option Fields
  | [] => none
  | c :: l =>
    if c = '{' then
      if l = ['}'] then some [] else (readField l).bind fun (f, l') => (readMore (l.length + 1) l').map (f :: ·)
    else none

/-! ## What is written reads back -/

/-- The code units of a character. -/
def units (c : Char) : List Nat :=
  let n := c.toNat
  if n < 0x10000 then [n] else [0xD800 + (n - 0x10000) / 1024, 0xDC00 + (n - 0x10000) % 1024]

theorem joinUnits_units (c : Char) (us : List Nat) : joinUnits (units c ++ us) = (joinUnits us).map (c :: ·) := by
  have hc : c.toNat.isValidChar := c.valid
  unfold units
  by_cases hn : c.toNat < 0x10000
  · rw [if_pos hn, List.singleton_append, joinUnits.eq_def]
    simp only [if_pos hc, Char.ofNat_toNat]
  · have hlt : c.toNat < 0x110000 := by
      unfold Nat.isValidChar at hc
      omega
    have hhigh : ¬ (0xD800 + (c.toNat - 0x10000) / 1024).isValidChar := by
      unfold Nat.isValidChar
      omega
    rw [if_neg hn, List.cons_append, List.singleton_append, joinUnits.eq_def]
    simp only [if_neg hhigh]
    rw [if_pos (by omega)]
    have hsum : 0x10000 + (0xD800 + (c.toNat - 0x10000) / 1024 - 0xD800) * 1024 +
        (0xDC00 + (c.toNat - 0x10000) % 1024 - 0xDC00) = c.toNat := by omega
    rw [hsum, Char.ofNat_toNat]

theorem joinUnits_flatMap (s : List Char) : joinUnits (s.flatMap units) = some s := by
  induction s with
  | nil => rfl
  | cons c s ih =>
    rw [List.flatMap_cons, joinUnits_units, ih]
    rfl

/-- A string's next code units, before those that follow. -/
def prepend (us : List Nat) (r : List Nat × List Char) : List Nat × List Char := (us ++ r.1, r.2)

theorem readUnits_escaped {u : Nat} {l r : List Char} (h : readEscape l = some (u, r)) (fuel : Nat) :
    readUnits (fuel + 1) ('\\' :: l) = (readUnits fuel r).map (prepend [u]) := by
  have hne : '\\' ≠ '"' := by decide
  rw [readUnits, if_neg hne, if_pos rfl, h]
  rfl

theorem readUnits_unitEscape {u : Nat} (h : u < 16 ^ 4) (fuel : Nat) (l : List Char) :
    readUnits (fuel + 1) (unitEscape u ++ l) = (readUnits fuel l).map (prepend [u]) := by
  refine readUnits_escaped ?_ fuel
  show readNumeral 16 4 0 (numeral 16 4 u ++ l) = _
  exact readNumeral_numeral (by omega) (by omega) h l

/-- **An escaped character reads as its code units.** -/
theorem readUnits_escape (c : Char) (fuel : Nat) (l : List Char) :
    readUnits (fuel + (units c).length) (escape c ++ l) = (readUnits fuel l).map (prepend (units c)) := by
  have hlt : c.toNat < 0x110000 := by
    have hc : c.toNat.isValidChar := c.valid
    unfold Nat.isValidChar at hc
    omega
  have hsmall (h : c.toNat < 0x10000) : units c = [c.toNat] := if_pos h
  unfold escape
  simp only
  by_cases h34 : c.toNat = 34
  · rw [if_pos h34, hsmall (by omega), h34]
    exact readUnits_escaped rfl fuel
  rw [if_neg h34]
  by_cases h92 : c.toNat = 92
  · rw [if_pos h92, hsmall (by omega), h92]
    exact readUnits_escaped rfl fuel
  rw [if_neg h92]
  by_cases h10 : c.toNat = 10
  · rw [if_pos h10, hsmall (by omega), h10]
    exact readUnits_escaped rfl fuel
  rw [if_neg h10]
  by_cases h13 : c.toNat = 13
  · rw [if_pos h13, hsmall (by omega), h13]
    exact readUnits_escaped rfl fuel
  rw [if_neg h13]
  by_cases h9 : c.toNat = 9
  · rw [if_pos h9, hsmall (by omega), h9]
    exact readUnits_escaped rfl fuel
  rw [if_neg h9]
  by_cases h12 : c.toNat = 12
  · rw [if_pos h12, hsmall (by omega), h12]
    exact readUnits_escaped rfl fuel
  rw [if_neg h12]
  by_cases h8 : c.toNat = 8
  · rw [if_pos h8, hsmall (by omega), h8]
    exact readUnits_escaped rfl fuel
  rw [if_neg h8]
  by_cases hprint : 32 ≤ c.toNat ∧ c.toNat ≤ 126
  · have hquote : c ≠ '"' := fun he => h34 (by rw [he]; rfl)
    have hslash : c ≠ '\\' := fun he => h92 (by rw [he]; rfl)
    rw [if_pos hprint, hsmall (by omega), List.singleton_append, List.length_singleton, readUnits, if_neg hquote,
      if_neg hslash, if_neg (by omega)]
    rfl
  rw [if_neg hprint]
  by_cases hn : c.toNat < 0x10000
  · rw [if_pos hn, hsmall hn]
    exact readUnits_unitEscape (by omega) fuel l
  · have hunits : units c = [0xD800 + (c.toNat - 0x10000) / 1024, 0xDC00 + (c.toNat - 0x10000) % 1024] := if_neg hn
    have hlen : fuel + (units c).length = fuel + 1 + 1 := by
      rw [hunits]
      rfl
    rw [if_neg hn, hlen, List.append_assoc, readUnits_unitEscape (by omega), readUnits_unitEscape (by omega),
      Option.map_map, hunits]
    rfl

theorem readUnits_flatMap (s : List Char) (l : List Char) : ∀ fuel, (s.flatMap units).length < fuel →
    readUnits fuel (s.flatMap escape ++ '"' :: l) = some (s.flatMap units, l) := by
  induction s with
  | nil =>
    intro fuel hfuel
    obtain ⟨k, rfl⟩ : ∃ k, fuel = k + 1 := ⟨fuel - 1, by simp at hfuel; omega⟩
    rfl
  | cons c s ih =>
    intro fuel hfuel
    rw [List.flatMap_cons, List.length_append] at hfuel
    obtain ⟨k, rfl⟩ : ∃ k, fuel = k + (units c).length := ⟨fuel - (units c).length, by omega⟩
    rw [List.flatMap_cons, List.append_assoc, readUnits_escape, ih k (by omega), List.flatMap_cons]
    rfl

/-- A character's escape is no shorter than its code units. -/
theorem length_units_le (c : Char) : (units c).length ≤ (escape c).length := by
  unfold units escape
  by_cases hn : c.toNat < 0x10000
  · simp only [if_pos hn]
    repeat' split
    all_goals simp [unitEscape]
  · simp only [if_neg hn]
    repeat' split
    all_goals first | omega | simp [unitEscape]

theorem length_flatMap_units_le (s : List Char) : (s.flatMap units).length ≤ (s.flatMap escape).length := by
  induction s with
  | nil => exact Nat.le_refl _
  | cons c s ih =>
    rw [List.flatMap_cons, List.flatMap_cons, List.length_append, List.length_append]
    exact Nat.add_le_add (length_units_le c) ih

theorem readString_quoted (s l : List Char) : readString (quoted s ++ l) = some (s, l) := by
  have hfuel : (s.flatMap units).length < (s.flatMap escape ++ '"' :: l).length + 1 := by
    have := length_flatMap_units_le s
    rw [List.length_append]
    omega
  have htext : quoted s ++ l = '"' :: (s.flatMap escape ++ '"' :: l) := by
    rw [quoted, List.cons_append, List.append_assoc, List.singleton_append]
  rw [htext, readString, if_pos rfl, readUnits_flatMap s l _ hfuel, Option.bind_some]
  simp only [joinUnits_flatMap, Option.map_some]

theorem readDigits_toDigits {l : List Char} (hl : ∀ c ∈ l.head?, c.isDigit = false) (n : Nat) :
    readDigits (Nat.toDigits 10 n ++ l) = some (n, l) := by
  have hdigits : ∀ c ∈ Nat.toDigits 10 n, c.isDigit = true := fun c hc => Nat.isDigit_of_mem_toDigits (by omega) (by omega) hc
  have htake : l.takeWhile Char.isDigit = [] := by
    cases l with
    | nil => rfl
    | cons c l => exact List.takeWhile_cons_of_neg (by rw [hl c rfl]; exact Bool.false_ne_true)
  have hdrop : l.dropWhile Char.isDigit = l := by
    cases l with
    | nil => rfl
    | cons c l => exact List.dropWhile_cons_of_neg (by rw [hl c rfl]; exact Bool.false_ne_true)
  unfold readDigits
  rw [List.takeWhile_append_of_pos hdigits, List.dropWhile_append_of_pos hdigits, htake, hdrop, List.append_nil]
  obtain ⟨c, ds, hcons⟩ := List.exists_cons_of_ne_nil (Nat.toDigits_ne_nil (b := 10) (n := n))
  have hvalue : Nat.ofDigitChars 10 (c :: ds) 0 = n := by rw [← hcons, Nat.ofDigitChars_ten_toDigits]
  rw [hcons]
  simp only [hvalue]

theorem readInt_decimal {l : List Char} (hl : ∀ c ∈ l.head?, c.isDigit = false) (n : Int) :
    readInt (decimal n ++ l) = some (n, l) := by
  unfold decimal
  by_cases hn : n < 0
  · rw [if_pos hn, List.cons_append, readInt, if_pos rfl, readDigits_toDigits hl]
    simp only [Option.map_some]
    rw [show -(n.natAbs : Int) = n by omega]
  · obtain ⟨c, ds, hcons⟩ := List.exists_cons_of_ne_nil (Nat.toDigits_ne_nil (b := 10) (n := n.natAbs))
    have hdigit : c.isDigit = true := by
      refine Nat.isDigit_of_mem_toDigits (b := 10) (n := n.natAbs) (by omega) (by omega) ?_
      rw [hcons]
      exact List.mem_cons_self
    have hsign : c ≠ '-' := by
      rintro rfl
      cases hdigit
    rw [if_neg hn, hcons, List.cons_append, readInt, if_neg hsign, ← List.cons_append, ← hcons, readDigits_toDigits hl]
    simp only [Option.map_some]
    rw [show (n.natAbs : Int) = n by omega]

/-- A number begins with a sign or a digit. -/
theorem exists_decimal_cons (n : Int) (l : List Char) :
    ∃ c r, decimal n ++ l = c :: r ∧ c ≠ '"' ∧ c ≠ 't' ∧ c ≠ 'f' := by
  unfold decimal
  by_cases hn : n < 0
  · rw [if_pos hn]
    exact ⟨'-', _, rfl, by decide, by decide, by decide⟩
  · obtain ⟨c, ds, hcons⟩ := List.exists_cons_of_ne_nil (Nat.toDigits_ne_nil (b := 10) (n := n.natAbs))
    have hdigit : c.isDigit = true := by
      refine Nat.isDigit_of_mem_toDigits (b := 10) (n := n.natAbs) (by omega) (by omega) ?_
      rw [hcons]
      exact List.mem_cons_self
    have hne {d : Char} (hd : d.isDigit = false) : c ≠ d := by
      rintro rfl
      rw [hd] at hdigit
      cases hdigit
    rw [if_neg hn, hcons]
    exact ⟨c, _, rfl, hne rfl, hne rfl, hne rfl⟩

theorem readWord_append (rest : String) (v : Scalar) (l : List Char) :
    readWord rest v (rest.toList ++ l) = some (v, l) := by
  unfold readWord
  rw [if_pos (List.isPrefixOf_iff_prefix.2 (List.prefix_append _ _)), List.drop_left]

theorem readScalar_dump (v : Scalar) {l : List Char} (hl : ∀ c ∈ l.head?, c.isDigit = false) :
    readScalar (v.dump ++ l) = some (v, l) := by
  cases v with
  | str s =>
    have hread := readString_quoted s l
    rw [Scalar.dump]
    unfold quoted at hread ⊢
    rw [List.cons_append] at hread ⊢
    rw [readScalar, if_pos rfl, hread]
    rfl
  | int n =>
    have hread := readInt_decimal hl n
    rw [Scalar.dump]
    obtain ⟨c, r, hcons, hquote, ht, hf⟩ := exists_decimal_cons n l
    rw [hcons] at hread ⊢
    rw [readScalar, if_neg hquote, if_neg ht, if_neg hf, hread]
    rfl
  | bool b =>
    cases b with
    | true =>
      have hword : readWord "rue" (.bool true) ("rue".toList ++ l) = some (.bool true, l) := readWord_append _ _ l
      exact hword
    | false =>
      have hword : readWord "alse" (.bool false) ("alse".toList ++ l) = some (.bool false, l) := readWord_append _ _ l
      exact hword

theorem readField_field (f : List Char × Scalar) {l : List Char} (hl : ∀ c ∈ l.head?, c.isDigit = false) :
    readField (field f ++ l) = some (f, l) := by
  unfold field readField
  rw [List.append_assoc, readString_quoted, Option.bind_some]
  simp only [List.cons_append, if_true, readScalar_dump f.2 hl, Option.map_some]

theorem moreFields_head (fields : Fields) : ∀ c ∈ (moreFields fields).head?, c.isDigit = false := by
  intro c hc
  cases fields with
  | nil =>
    obtain rfl : '}' = c := Option.some.inj hc
    rfl
  | cons f fields =>
    obtain rfl : ',' = c := Option.some.inj hc
    rfl

theorem readMore_moreFields (fields : Fields) : ∀ fuel, fields.length < fuel →
    readMore fuel (moreFields fields) = some fields := by
  induction fields with
  | nil =>
    intro fuel hfuel
    obtain ⟨k, rfl⟩ : ∃ k, fuel = k + 1 := ⟨fuel - 1, by simp at hfuel; omega⟩
    rfl
  | cons f fields ih =>
    intro fuel hfuel
    rw [List.length_cons] at hfuel
    obtain ⟨k, rfl⟩ : ∃ k, fuel = k + 1 := ⟨fuel - 1, by omega⟩
    rw [moreFields, readMore, if_pos rfl, readField_field f (moreFields_head fields), Option.bind_some]
    simp only [ih k (by omega), Option.map_some]

theorem length_le_moreFields (fields : Fields) : fields.length ≤ (moreFields fields).length := by
  induction fields with
  | nil => exact Nat.zero_le _
  | cons f fields ih =>
    rw [moreFields, List.length_cons, List.length_cons, List.length_append]
    omega

/-- **What is written reads back.** -/
theorem loads_dumps (fields : Fields) : loads (dumps fields) = some fields := by
  cases fields with
  | nil => rfl
  | cons f fields =>
    have hne : field f ++ moreFields fields ≠ ['}'] := by
      unfold field quoted
      simp
    have hfuel : fields.length < (field f ++ moreFields fields).length + 1 := by
      have := length_le_moreFields fields
      rw [List.length_append]
      omega
    rw [dumps, loads, if_pos rfl, if_neg hne, readField_field f (moreFields_head fields), Option.bind_some]
    simp only [readMore_moreFields fields _ hfuel, Option.map_some]

example : loads (dumps [("a".toList, .str "é😀\"\n~".toList), ("b".toList, .int (-20)), ("c".toList, .bool true)]) =
    some [("a".toList, .str "é😀\"\n~".toList), ("b".toList, .int (-20)), ("c".toList, .bool true)] := by decide +kernel

end JsonText
end Lib
