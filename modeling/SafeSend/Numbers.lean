import Mathlib.Algebra.Order.Field.Rat
import Mathlib.Algebra.Order.Group.Unbundled.Int
import Mathlib.Data.Int.Log
import Mathlib.Data.Rat.Floor
import SafeSend.Errors
import SafeSend.Text
/-!
# Numbers read from text

`int` and `float` of a text.  Every script's decimal digits count, single underscores may stand between digits, and
spaces around.  Of more digits than 4300 `int` raises; `float` rounds to the nearest double, and what is past the last
one is infinite.
-/
namespace SafeSend
namespace Numbers

/-- The zeros of Unicode's runs of decimal digits. -/
def decimalZeros : List Nat := [
  0x30, 0x660, 0x6f0, 0x7c0, 0x966, 0x9e6, 0xa66, 0xae6, 0xb66, 0xbe6, 0xc66, 0xce6, 0xd66, 0xde6, 0xe50, 0xed0, 0xf20,
  0x1040, 0x1090, 0x17e0, 0x1810, 0x1946, 0x19d0, 0x1a80, 0x1a90, 0x1b50, 0x1bb0, 0x1c40, 0x1c50, 0xa620, 0xa8d0, 0xa900,
  0xa9d0, 0xa9f0, 0xaa50, 0xabf0, 0xff10, 0x104a0, 0x10d30, 0x11066, 0x110f0, 0x11136, 0x111d0, 0x112f0, 0x11450,
  0x114d0, 0x11650, 0x116c0, 0x11730, 0x118e0, 0x11950, 0x11c50, 0x11d50, 0x11da0, 0x11f50, 0x16a60, 0x16ac0, 0x16b50,
  0x1d7ce, 0x1d7d8, 0x1d7e2, 0x1d7ec, 0x1d7f6, 0x1e140, 0x1e2f0, 0x1e4f0, 0x1e950, 0x1fbf0]

/-- A character as the numeric parsers see it: digits and spaces become ASCII, what else is beyond ASCII no number. -/
def toAscii (c : Char) : Char :=
  if c.toNat < 127 then c
  else if Text.isSpace c then ' '
  else
    match decimalZeros.find? fun z => z ≤ c.toNat ∧ c.toNat < z + 10 with
    | some z => Char.ofNat (48 + (c.toNat - z))
    | none => '?'

def isAsciiSpace (c : Char) : Bool := (9 ≤ c.toNat && c.toNat ≤ 13) || c == ' '

def trim (l : List Char) : List Char := ((l.dropWhile isAsciiSpace).reverse.dropWhile isAsciiSpace).reverse

/-- What a parser is left with: ASCII, without the spaces around. -/
def numberText (s : String) : List Char := trim (s.toList.map toAscii)

def asciiDigit (c : Char) : Option Nat := if 48 ≤ c.toNat ∧ c.toNat ≤ 57 then some (c.toNat - 48) else none

/-- Digits with single underscores between them; `after` a digit an underscore may come, or the end. -/
def readDigits : Bool → List Char → Option (List Nat)
  | after, [] => if after then some [] else none
  | after, c :: l =>
    if after ∧ c = '_' then readDigits false l
    else
      match asciiDigit c with
      | none => none
      | some d => (readDigits true l).map (d :: ·)

/-- The number some decimal digits spell. -/
def ofDigits (l : List Nat) : Nat := l.foldl (fun n d => n * 10 + d) 0

/-- A sign, and what follows it. -/
def readSign : List Char → Bool × List Char
  | '-' :: l => (true, l)
  | '+' :: l => (false, l)
  | l => (false, l)

/-- `sys.get_int_max_str_digits()`. -/
def MAX_STR_DIGITS : Nat := 4300

/-- `int(s)`; none where it raises. -/
def readInt (s : String) : Option Int :=
  let (negative, text) := readSign (numberText s)
  match readDigits false text with
  | none => none
  | some digits =>
    if MAX_STR_DIGITS < digits.length then none
    else some (if negative then -(ofDigits digits : Int) else ofDigits digits)

example : readInt "\u0661_2 " = some 12 := by decide +kernel

/-! ## Floats -/

/-- The text without its underscores, each of which must stand between digits; `last` is the character before. -/
def dropUnderscores : Char → List Char → Option (List Char)
  | last, [] => if last = '_' then none else some []
  | last, c :: l =>
    if c = '_' then if (asciiDigit last).isSome then dropUnderscores c l else none
    else if last = '_' ∧ (asciiDigit c).isNone then none
    else (dropUnderscores c l).map (c :: ·)

/-- The power of ten after the digits. -/
def readExponent : List Char → Option Int
  | [] => some 0
  | c :: l =>
    if c = 'e' ∨ c = 'E' then
      let (negative, text) := readSign l
      (readDigits false text).map fun digits => if negative then -(ofDigits digits : Int) else ofDigits digits
    else none

/-- The digits that follow a point. -/
def readFraction : List Char → List Char × List Char
  | '.' :: l => (l.takeWhile Char.isDigit, l.dropWhile Char.isDigit)
  | l => ([], l)

/-- A decimal without its sign: digits before or after the point, and an exponent. -/
def readDecimal (l : List Char) : Option Rat :=
  let whole := l.takeWhile Char.isDigit
  let (fraction, rest) := readFraction (l.dropWhile Char.isDigit)
  if whole.isEmpty && fraction.isEmpty then none
  else
    (readExponent rest).map fun (exponent : Int) =>
      (ofDigits ((whole ++ fraction).filterMap asciiDigit) : Rat) * 10 ^ (exponent - fraction.length)

/-- The nearest integer, the even one of two. -/
def roundHalfEven (q : Rat) : Int :=
  let below := q.floor
  let part := q - below
  if part < 1 / 2 then below
  else if 1 / 2 < part then below + 1
  else if below % 2 = 0 then below else below + 1

/-- The nearest double of 53 bits, its exponent not below -1074. -/
def toDouble (q : Rat) : Seconds :=
  if q = 0 then .fin 0
  else
    let unit : Rat := 2 ^ max (Int.log 2 |q| - 52) (-1074)
    let rounded := roundHalfEven (q / unit) * unit
    if 2 ^ 1024 ≤ rounded then .posInf else if rounded ≤ -2 ^ 1024 then .negInf else .fin rounded

/-- `float(s)`; none where it raises. -/
def readFloat (s : String) : Option Seconds :=
  match dropUnderscores ' ' (numberText s) with
  | none => none
  | some text =>
    let (negative, body) := readSign text
    let word := body.map Char.toLower
    if word = "inf".toList ∨ word = "infinity".toList then some (if negative then .negInf else .posInf)
    else if word = "nan".toList then some .nan
    else (readDecimal body).map fun q => toDouble (if negative then -q else q)

example : readFloat "-Infinity" = some .negInf ∧ readFloat "1_.5" = none := by decide +kernel

end Numbers
end SafeSend
