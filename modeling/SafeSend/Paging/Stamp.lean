import SafeSend.Lib.Numerals
import SafeSend.Text
/-!
# Timestamps and row ids, as text

An aware `datetime` with `isoformat` and `fromisoformat`, and a `UUID` with its `str()` and its parser.  Of the forms the
two parsers read, the ones the two printers write are here: a cursor of ours has no other.
-/
namespace SafeSend
namespace Paging

open Lib

/-! ## `datetime` -/

/-- The fields of an aware `datetime`; the offset from UTC is in microseconds. -/
structure Civil where
  year : Nat
  month : Nat
  day : Nat
  hour : Nat
  minute : Nat
  second : Nat
  microsecond : Nat
  offset : Int
  deriving DecidableEq, Repr

def isLeap (year : Nat) : Bool := year % 4 = 0 && (year % 100 ≠ 0 || year % 400 = 0)

def daysInMonth (year month : Nat) : Nat :=
  if month = 2 then if isLeap year then 29 else 28
  else if month = 4 ∨ month = 6 ∨ month = 9 ∨ month = 11 then 30
  else 31

def DAY : Int := 24 * 3600 * 1000000

/-- What `datetime` accepts. -/
def Civil.valid (c : Civil) : Prop :=
  (1 ≤ c.year ∧ c.year ≤ 9999) ∧ (1 ≤ c.month ∧ c.month ≤ 12) ∧ (1 ≤ c.day ∧ c.day ≤ daysInMonth c.year c.month) ∧
    c.hour < 24 ∧ c.minute < 60 ∧ c.second < 60 ∧ c.microsecond < 1000000 ∧ -DAY < c.offset ∧ c.offset < DAY

instance (c : Civil) : Decidable c.valid := inferInstanceAs (Decidable (_ ∧ _))

abbrev Datetime := { c : Civil // c.valid }

/-- The days before a year, and before a month of it. -/
def daysBeforeYear (year : Nat) : Nat := (year - 1) * 365 + (year - 1) / 4 - (year - 1) / 100 + (year - 1) / 400

def daysBeforeMonth (year month : Nat) : Nat := (List.range (month - 1)).foldl (fun days m => days + daysInMonth year (m + 1)) 0

/-- The instant, in microseconds of UTC: what a `timestamptz` is compared by. -/
def Civil.instant (c : Civil) : Int :=
  ((((daysBeforeYear c.year + daysBeforeMonth c.year c.month + c.day : Nat) * 24 + c.hour) * 60 + c.minute) * 60 +
    c.second : Nat) * 1000000 + c.microsecond - c.offset

/-- The offset's magnitude as hours, minutes, and where there are any, seconds and microseconds. -/
def offsetText (n : Nat) : List Char :=
  let seconds := n / 1000000
  numeral 10 2 (seconds / 3600) ++ ':' :: numeral 10 2 (seconds / 60 % 60) ++
    if n % 60000000 = 0 then []
    else ':' :: numeral 10 2 (seconds % 60) ++ if n % 1000000 = 0 then [] else '.' :: numeral 10 6 (n % 1000000)

/-- `isoformat`. -/
def isoformat (c : Civil) : List Char :=
  numeral 10 4 c.year ++ '-' :: numeral 10 2 c.month ++ '-' :: numeral 10 2 c.day ++
    'T' :: numeral 10 2 c.hour ++ ':' :: numeral 10 2 c.minute ++ ':' :: numeral 10 2 c.second ++
    (if c.microsecond = 0 then [] else '.' :: numeral 10 6 c.microsecond) ++
    (if c.offset < 0 then '-' else '+') :: offsetText c.offset.natAbs

def readChar (c : Char) : List Char → Option (List Char)
  | [] => none
  | d :: l => if d = c then some l else none

/-- A fraction of six digits, where there is one. -/
def readFraction : List Char → Option (Nat × List Char)
  | '.' :: l => readNumeral 10 6 0 l
  | l => some (0, l)

/-- The rest of an offset: its seconds, where it has any. -/
def readOffsetSeconds : List Char → Option (Nat × List Char)
  | ':' :: l => do
    let (s, l) ← readNumeral 10 2 0 l
    let (us, l) ← readFraction l
    return (s * 1000000 + us, l)
  | l => some (0, l)

/-- An offset to the end, in microseconds; one without a whole second is `timezone.utc`. -/
def readOffset : List Char → Option Int
  | sign :: l => do
    let (hh, l) ← readNumeral 10 2 0 l
    let l ← readChar ':' l
    let (mm, l) ← readNumeral 10 2 0 l
    let (us, l) ← readOffsetSeconds l
    let n : Nat := (hh * 3600 + mm * 60) * 1000000 + us
    let n := if n / 1000000 = 0 then 0 else n
    if l = [] then
      if sign = '+' then some n else if sign = '-' then some (-(n : Int)) else none
    else none
  | [] => none

/-- `fromisoformat`. -/
def fromisoformat (l : List Char) : Option Datetime := do
  let (year, l) ← readNumeral 10 4 0 l
  let l ← readChar '-' l
  let (month, l) ← readNumeral 10 2 0 l
  let l ← readChar '-' l
  let (day, l) ← readNumeral 10 2 0 l
  let l ← readChar 'T' l
  let (hour, l) ← readNumeral 10 2 0 l
  let l ← readChar ':' l
  let (minute, l) ← readNumeral 10 2 0 l
  let l ← readChar ':' l
  let (second, l) ← readNumeral 10 2 0 l
  let (microsecond, l) ← readFraction l
  let offset ← readOffset l
  let c : Civil := ⟨year, month, day, hour, minute, second, microsecond, offset⟩
  if h : c.valid then some ⟨c, h⟩ else none

/-- The offset reads back: there is none, or it has a second at the least. -/
def Civil.whole (c : Civil) : Prop := c.offset = 0 ∨ 1000000 ≤ c.offset.natAbs

instance (c : Civil) : Decidable c.whole := inferInstanceAs (Decidable (_ ∨ _))

/-- A `timestamptz` as it comes from the driver, in UTC or at another offset that reads back. -/
abbrev Timestamptz := { t : Datetime // t.1.whole }

/-- What is left of an offset. -/
def seenOffset (offset : Int) : Int := if offset.natAbs / 1000000 = 0 then 0 else offset

theorem readChar_cons (c : Char) (l : List Char) : readChar c (c :: l) = some l := if_pos rfl

theorem readTen {k n : Nat} (h : n < 10 ^ k) (l : List Char) : readNumeral 10 k 0 (numeral 10 k n ++ l) = some (n, l) :=
  readNumeral_numeral (by decide) (by decide) h l

theorem readFraction_text {us : Nat} (h : us < 1000000) {l : List Char} (hl : l.head? ≠ some '.') :
    readFraction ((if us = 0 then [] else '.' :: numeral 10 6 us) ++ l) = some (us, l) := by
  by_cases h0 : us = 0
  · rw [if_pos h0, List.nil_append, h0]
    cases l with
    | nil => rfl
    | cons c l =>
      have hc : c ≠ '.' := fun hc => hl (by rw [hc]; rfl)
      unfold readFraction
      split
      · rename_i heq
        exact absurd (List.cons.inj heq).1 hc
      · rfl
  · rw [if_neg h0]
    exact readTen (k := 6) h l

theorem readOffsetSeconds_text {n : Nat} :
    readOffsetSeconds
        (if n % 60000000 = 0 then []
          else ':' :: numeral 10 2 (n / 1000000 % 60) ++ if n % 1000000 = 0 then [] else '.' :: numeral 10 6 (n % 1000000)) =
      some (n % 60000000, []) := by
  by_cases h : n % 60000000 = 0
  · rw [if_pos h, h]
    rfl
  · rw [if_neg h]
    have hfraction : readFraction (if n % 1000000 = 0 then [] else '.' :: numeral 10 6 (n % 1000000)) =
        some (n % 1000000, []) := by
      have hread := @readFraction_text (n % 1000000) (Nat.mod_lt _ (by decide)) [] (by decide)
      rwa [List.append_nil] at hread
    rw [List.cons_append, readOffsetSeconds, readTen (k := 2) (by omega)]
    show (readFraction _).bind _ = _
    rw [hfraction]
    have hsum : n / 1000000 % 60 * 1000000 + n % 1000000 = n % 60000000 := by omega
    exact congrArg (fun m => some (m, [])) hsum

/-- **The magnitude of an offset reads back**, but for less than a second. -/
theorem readOffset_text {sign : Char} {n : Nat} (h : n < 86400000000) :
    readOffset (sign :: offsetText n) =
      let m := if n / 1000000 = 0 then 0 else n
      if sign = '+' then some (m : Int) else if sign = '-' then some (-(m : Int)) else none := by
  have hsum : (n / 1000000 / 3600 * 3600 + n / 1000000 / 60 % 60 * 60) * 1000000 + n % 60000000 = n := by omega
  simp only [readOffset, offsetText, List.append_assoc, List.cons_append]
  rw [readTen (k := 2) (by omega)]
  simp only [Option.bind_eq_bind, Option.bind_some, readChar_cons]
  rw [readTen (k := 2) (by omega)]
  simp only [Option.bind_some]
  rw [← List.cons_append, readOffsetSeconds_text]
  simp only [Option.bind_some, if_pos, hsum]

theorem readOffset_seen {offset : Int} (h : offset.natAbs < 86400000000) :
    readOffset ((if offset < 0 then '-' else '+') :: offsetText offset.natAbs) = some (seenOffset offset) := by
  rw [readOffset_text h, seenOffset]
  by_cases hshort : offset.natAbs / 1000000 = 0
  · by_cases hneg : offset < 0
    · simp [hshort, hneg]
    · simp [hshort, hneg]
  · by_cases hneg : offset < 0
    · have habs : -(offset.natAbs : Int) = offset := by omega
      simp only [if_neg hshort, if_pos hneg, if_neg (show ¬ '-' = '+' by decide), if_pos, habs]
    · have habs : (offset.natAbs : Int) = offset := by omega
      simp only [if_neg hshort, if_neg hneg, if_pos, habs]

theorem valid_seen {c : Civil} (h : c.valid) : Civil.valid { c with offset := seenOffset c.offset } := by
  obtain ⟨hyear, hmonth, hday, hhour, hminute, hsecond, hmicrosecond, hlo, hhi⟩ := h
  have hseen : -DAY < seenOffset c.offset ∧ seenOffset c.offset < DAY := by
    unfold seenOffset
    split
    · decide
    · exact ⟨hlo, hhi⟩
  exact ⟨hyear, hmonth, hday, hhour, hminute, hsecond, hmicrosecond, hseen⟩

/-- **What `isoformat` writes, `fromisoformat` reads**, but for an offset of less than a second. -/
theorem fromisoformat_isoformat (t : Datetime) :
    fromisoformat (isoformat t.1) = some ⟨{ t.1 with offset := seenOffset t.1.offset }, valid_seen t.2⟩ := by
  obtain ⟨c, h⟩ := t
  obtain ⟨⟨-, hyear⟩, ⟨-, hmonth⟩, ⟨-, hday⟩, hhour, hminute, hsecond, hmicrosecond, hlo, hhi⟩ := id h
  have hdays : daysInMonth c.year c.month ≤ 31 := by
    unfold daysInMonth
    split <;> [split; split] <;> omega
  have hoffset : c.offset.natAbs < 86400000000 := by
    unfold DAY at hlo hhi
    omega
  have hdot : ((if c.offset < 0 then '-' else '+') :: offsetText c.offset.natAbs).head? ≠ some '.' := by
    by_cases hneg : c.offset < 0
    · simp [hneg]
    · simp [hneg]
  simp only [fromisoformat, isoformat, List.append_assoc, List.cons_append]
  rw [readTen (k := 4) (by omega)]
  simp only [Option.bind_eq_bind, Option.bind_some, readChar_cons]
  rw [readTen (k := 2) (by omega)]
  simp only [Option.bind_some, readChar_cons]
  rw [readTen (k := 2) (by omega)]
  simp only [Option.bind_some, readChar_cons]
  rw [readTen (k := 2) (by omega)]
  simp only [Option.bind_some, readChar_cons]
  rw [readTen (k := 2) (by omega)]
  simp only [Option.bind_some, readChar_cons]
  rw [readTen (k := 2) (by omega)]
  simp only [Option.bind_some]
  rw [readFraction_text hmicrosecond hdot]
  simp only [Option.bind_some]
  rw [readOffset_seen hoffset]
  exact dif_pos (valid_seen h)

theorem seenOffset_eq {c : Civil} : seenOffset c.offset = c.offset ↔ c.whole := by
  unfold seenOffset Civil.whole
  split
  · omega
  · omega

theorem fromisoformat_whole {t : Datetime} (h : t.1.whole) : fromisoformat (isoformat t.1) = some t := by
  rw [fromisoformat_isoformat]
  exact congrArg some (Subtype.ext (congrArg (fun o => { t.1 with offset := o }) (seenOffset_eq.2 h)))

/-! ## `UUID` -/

abbrev Uuid := Fin (2 ^ 128)

/-- `str(u)`: thirty-two digits in groups of 8, 4, 4, 4 and 12. -/
def str (u : Uuid) : List Char :=
  let hex := numeral 16 32 u
  hex.take 8 ++ '-' :: (hex.drop 8).take 4 ++ '-' :: (hex.drop 12).take 4 ++ '-' :: (hex.drop 16).take 4 ++
    '-' :: hex.drop 20

/-- `UUID(text)`: hyphens wherever they are, and exactly thirty-two digits. -/
def parse (l : List Char) : Option Uuid := do
  let (n, l) ← readNumeral 16 32 0 (l.filter (· ≠ '-'))
  if h : n < 2 ^ 128 then if l = [] then some ⟨n, h⟩ else none else none

/-- Without its hyphens the text is the numeral. -/
theorem filter_str (u : Uuid) : (str u).filter (· ≠ '-') = numeral 16 32 u := by
  have hkeep : ∀ l : List Char, (∀ c ∈ l, c ∈ numeral 16 32 u) → l.filter (· ≠ '-') = l := by
    intro l hl
    apply List.filter_eq_self.2
    intro c hc
    have hne : c ≠ '-' := by
      rintro rfl
      exact not_mem_numeral (by decide) (by decide) (by decide) (hl _ hc)
    simpa using hne
  have hpart : ∀ i k, (((numeral 16 32 u).drop i).take k).filter (· ≠ '-') = ((numeral 16 32 u).drop i).take k :=
    fun i k => hkeep _ (fun c hc => List.mem_of_mem_drop (List.mem_of_mem_take hc))
  have hjoin : ∀ i k, ((numeral 16 32 u).drop i).take k ++ (numeral 16 32 u).drop (i + k) = (numeral 16 32 u).drop i := by
    intro i k
    rw [← List.drop_drop, List.take_append_drop]
  have hhyphen : ∀ l : List Char, ('-' :: l).filter (· ≠ '-') = l.filter (· ≠ '-') := fun l =>
    List.filter_cons_of_neg (by simp)
  unfold str
  rw [List.filter_append, List.filter_append, List.filter_append, List.filter_append, hhyphen, hhyphen, hhyphen, hhyphen,
    hpart, hpart, hpart, hkeep _ (fun c hc => List.mem_of_mem_take hc), hkeep _ (fun c hc => List.mem_of_mem_drop hc),
    List.append_assoc, hjoin 16 4, List.append_assoc, hjoin 12 4, List.append_assoc, hjoin 8 4]
  exact List.take_append_drop 8 _

/-- **What `str` writes, the parser reads.** -/
theorem parse_str (u : Uuid) : parse (str u) = some u := by
  have hread : readNumeral 16 32 0 (numeral 16 32 u) = some ((u : Nat), []) := by
    have h := readNumeral_numeral (b := 16) (k := 32) (by decide) (by decide) (n := u) u.isLt []
    rwa [List.append_nil] at h
  unfold parse
  rw [filter_str, hread]
  exact dif_pos u.isLt

/-- The separator of a cursor is in no timestamp. -/
theorem bar_not_mem (c : Civil) : '|' ∉ isoformat c := by
  have hnumeral : ∀ k n, '|' ∉ numeral 10 k n := fun k n => not_mem_numeral (by decide) (by decide) (by decide)
  have hoffset : '|' ∉ offsetText c.offset.natAbs := by
    unfold offsetText
    by_cases hminutes : c.offset.natAbs % 60000000 = 0
    · simp [hminutes, hnumeral]
    · by_cases hseconds : c.offset.natAbs % 1000000 = 0
      · simp [hminutes, hseconds, hnumeral]
      · simp [hminutes, hseconds, hnumeral]
  have hsign : '|' ≠ if c.offset < 0 then '-' else '+' := by
    split
    · decide
    · decide
  have hfraction : '|' ∉ if c.microsecond = 0 then [] else '.' :: numeral 10 6 c.microsecond := by
    split
    · simp
    · simp [hnumeral]
  simp [isoformat, hnumeral, hoffset, hsign, hfraction]

end Paging
end SafeSend
