import Mathlib.Tactic.Common
/-!
# Text

What the program uses of Python's strings: `str.strip`, and the UTF-8 codec both ways.  Decoding is the codec's
`errors="ignore"`: a malformed or truncated sequence is dropped up to the first byte that cannot continue it.
-/
namespace SafeSend
namespace Text

abbrev Bytes := List UInt8

/-- `str.isspace`, one character. -/
def isSpace (c : Char) : Bool :=
  let n := c.toNat
  (9 ≤ n && n ≤ 13) || (28 ≤ n && n ≤ 32) || n == 0x85 || n == 0xA0 || n == 0x1680 || (0x2000 ≤ n && n ≤ 0x200A) ||
    n == 0x2028 || n == 0x2029 || n == 0x202F || n == 0x205F || n == 0x3000

def strip (s : String) : String :=
  String.ofList (((s.toList.dropWhile isSpace).reverse.dropWhile isSpace).reverse)

/-- `not s.strip()`. -/
def blank (s : String) : Bool := (strip s).isEmpty

def encodeChar (c : Char) : Bytes :=
  let n := c.toNat
  if n < 0x80 then [.ofNat n]
  else if n < 0x800 then [.ofNat (0xC0 + n / 64), .ofNat (0x80 + n % 64)]
  else if n < 0x10000 then [.ofNat (0xE0 + n / 4096), .ofNat (0x80 + n / 64 % 64), .ofNat (0x80 + n % 64)]
  else [.ofNat (0xF0 + n / 262144), .ofNat (0x80 + n / 4096 % 64), .ofNat (0x80 + n / 64 % 64), .ofNat (0x80 + n % 64)]

/-- `s.encode("utf-8")`. -/
def encode (s : String) : Bytes := s.toList.flatMap encodeChar

/-- A sequence the decoder is inside of: the range its next byte must lie in, the bits so far and how many bytes are to
come. -/
structure Pending where
  lo : Nat
  hi : Nat
  acc : Nat
  left : Nat

/-- A byte where a sequence may begin: the character it already is, or what it leads. -/
def lead (b : Nat) : Option Char × Option Pending :=
  if b < 0x80 then (some (Char.ofNat b), none)
  else if b < 0xC2 then (none, none)
  else if b < 0xE0 then (none, some ⟨0x80, 0xBF, b % 32, 1⟩)
  else if b = 0xE0 then (none, some ⟨0xA0, 0xBF, b % 16, 2⟩)
  else if b = 0xED then (none, some ⟨0x80, 0x9F, b % 16, 2⟩)
  else if b < 0xF0 then (none, some ⟨0x80, 0xBF, b % 16, 2⟩)
  else if b = 0xF0 then (none, some ⟨0x90, 0xBF, b % 8, 3⟩)
  else if b < 0xF4 then (none, some ⟨0x80, 0xBF, b % 8, 3⟩)
  else if b = 0xF4 then (none, some ⟨0x80, 0x8F, b % 8, 3⟩)
  else (none, none)

/-- One byte.  A byte that cannot continue the sequence drops it and is looked at again as a lead. -/
def feed (st : Option Pending) (b : Nat) : Option Char × Option Pending :=
  match st with
  | none => lead b
  | some p =>
    if p.lo ≤ b ∧ b ≤ p.hi then
      let acc := p.acc * 64 + b % 64
      if p.left = 1 then (some (Char.ofNat acc), none) else (none, some ⟨0x80, 0xBF, acc, p.left - 1⟩)
    else lead b

def decodeFrom : Option Pending → Bytes → List Char
  | _, [] => []
  | st, b :: l =>
    let r := feed st b.toNat
    r.1.toList ++ decodeFrom r.2 l

/-- `raw.decode("utf-8", errors="ignore")`. -/
def decodeIgnore (raw : Bytes) : String := String.ofList (decodeFrom none raw)

/-- `raw.decode("utf-8")`, none where it raises. -/
def decode (raw : Bytes) : Option String := String.fromUTF8? raw.toByteArray

/-- `str.startswith`. -/
def startsWith (s p : String) : Bool := p.toList.isPrefixOf s.toList

theorem toNat_lt (c : Char) : c.toNat < 0x110000 := by
  have h := c.valid
  have hv : c.toNat = c.val.toNat := rfl
  simp only [UInt32.isValidChar, Nat.isValidChar] at h
  omega

theorem encodeChar_eq (c : Char) : encodeChar c = String.utf8EncodeChar c := by
  have hc := toNat_lt c
  have hv : c.val.toNat = c.toNat := rfl
  unfold encodeChar String.utf8EncodeChar
  simp only [hv]
  generalize c.toNat = n at *
  by_cases h1 : n < 0x80
  · rw [if_pos h1, if_pos (show n ≤ 0x7f by omega)]
  rw [if_neg h1, if_neg (show ¬ n ≤ 0x7f by omega)]
  by_cases h2 : n < 0x800
  · rw [if_pos h2, if_pos (show n ≤ 0x7ff by omega), show n / 64 % 32 + 192 = 192 + n / 64 by omega,
      Nat.add_comm (n % 64)]
  rw [if_neg h2, if_neg (show ¬ n ≤ 0x7ff by omega)]
  by_cases h3 : n < 0x10000
  · rw [if_pos h3, if_pos (show n ≤ 0xffff by omega), show n / 4096 % 16 + 224 = 224 + n / 4096 by omega,
      Nat.add_comm (n / 64 % 64), Nat.add_comm (n % 64)]
  · rw [if_neg h3, if_neg (show ¬ n ≤ 0xffff by omega), show n / 262144 % 8 + 240 = 240 + n / 262144 by omega,
      Nat.add_comm (n / 4096 % 64), Nat.add_comm (n / 64 % 64), Nat.add_comm (n % 64)]

theorem encode_eq (s : String) : (encode s).toByteArray = s.toByteArray := by
  have h : encodeChar = String.utf8EncodeChar := funext encodeChar_eq
  unfold encode
  rw [h]
  show s.toList.utf8Encode = _
  rw [← String.toByteArray_ofList, String.ofList_toList]

/-- **What is encoded decodes.** -/
theorem decode_encode (s : String) : decode (encode s) = some s := by
  unfold decode
  rw [encode_eq]
  simp only [String.fromUTF8?]
  rw [dif_pos s.isValidUTF8]
  rfl

end Text

theorem toString_inj {m n : Nat} (h : toString m = toString n) : m = n := by
  have h' : Nat.toDigits 10 m = Nat.toDigits 10 n := by simpa [Nat.repr] using congrArg String.toList h
  rw [← Nat.ofDigitChars_toDigits (b := 10) (n := m) (by omega) (by omega), h',
    Nat.ofDigitChars_toDigits (by omega) (by omega)]

end SafeSend
