import Mathlib.Tactic.Common
/-!
# Base64, the URL-safe alphabet

Three bytes to four characters, padded with `=`.  The decoder is the lenient one: a character outside the alphabet is
passed over, and a pad that completes a group of four ends the text.  Both alphabets' last two characters decode.  The
strict decoder reads the standard alphabet and refuses what is not exactly encoded.
-/
namespace Lib
namespace Base64

def alphabet : List Char := "ABCDEFGHIJKLMNOPQRSTUVWXYZabcdefghijklmnopqrstuvwxyz0123456789-_".toList

/-- The character of six bits. -/
def encodeChar (v : Nat) : Char := alphabet.getD v 'A'

def decodeChar (c : Char) : Option Nat :=
  let n := c.toNat
  if 65 ≤ n ∧ n ≤ 90 then some (n - 65)
  else if 97 ≤ n ∧ n ≤ 122 then some (n - 71)
  else if 48 ≤ n ∧ n ≤ 57 then some (n + 4)
  else if c = '-' ∨ c = '+' then some 62
  else if c = '_' ∨ c = '/' then some 63
  else none

/-- The characters before the padding. -/
def body : List UInt8 → List Char
  | [] => []
  | [a] => [encodeChar (a.toNat / 4), encodeChar (a.toNat % 4 * 16)]
  | [a, b] => [encodeChar (a.toNat / 4), encodeChar (a.toNat % 4 * 16 + b.toNat / 16), encodeChar (b.toNat % 16 * 4)]
  | a :: b :: c :: l =>
    encodeChar (a.toNat / 4) :: encodeChar (a.toNat % 4 * 16 + b.toNat / 16) ::
      encodeChar (b.toNat % 16 * 4 + c.toNat / 64) :: encodeChar (c.toNat % 64) :: body l

theorem length_body : ∀ raw : List UInt8, (body raw).length = (4 * raw.length + 2) / 3
  | [] => rfl
  | [_] => by simp only [body, List.length_cons, List.length_nil]
  | [_, _] => by simp only [body, List.length_cons, List.length_nil]
  | a :: b :: c :: l => by
    have hl := length_body l
    simp only [body, List.length_cons]
    omega

/-- What fills `n` characters up to a multiple of four. -/
def padding (n : Nat) : List Char := List.replicate ((4 - n % 4) % 4) '='

/-- `urlsafe_b64encode`. -/
def encode (raw : List UInt8) : List Char := body raw ++ padding (body raw).length

/-- Inside a group `at_` characters on, with the bits `left` over from the last one and `pads` pads since. -/
def decodeFrom : Nat → Nat → Nat → List Char → Option (List UInt8)
  | at_, _, _, [] => if at_ = 0 then some [] else none
  | at_, left, pads, c :: l =>
    if c = '=' then
      if 2 ≤ at_ then if 4 ≤ at_ + (pads + 1) then some [] else decodeFrom at_ left (pads + 1) l
      else decodeFrom at_ left pads l
    else
      match decodeChar c with
      | none => decodeFrom at_ left pads l
      | some v =>
        match at_ with
        | 0 => decodeFrom 1 v 0 l
        | 1 => (decodeFrom 2 (v % 16) 0 l).map fun raw => UInt8.ofNat (left * 4 + v / 16) :: raw
        | 2 => (decodeFrom 3 (v % 4) 0 l).map fun raw => UInt8.ofNat (left * 16 + v / 4) :: raw
        | _ => (decodeFrom 0 0 0 l).map fun raw => UInt8.ofNat (left * 64 + v) :: raw

/-- `urlsafe_b64decode`, of characters that are ASCII. -/
def decode (l : List Char) : Option (List UInt8) := decodeFrom 0 0 0 l

/-- A character of the standard alphabet. -/
def standardChar (c : Char) : Option Nat := if c = '-' ∨ c = '_' then none else decodeChar c

/-- As `decodeFrom`, where only the standard alphabet may stand, no character after a pad, and nothing at all after the
pad that completes a group. -/
def decodeStrictFrom : Nat → Nat → Nat → Bool → List Char → Option (List UInt8)
  | at_, _, _, _, [] => if at_ = 0 then some [] else none
  | at_, left, pads, padded, c :: l =>
    if c = '=' then
      if 2 ≤ at_ then
        if 4 ≤ at_ + (pads + 1) then if l.isEmpty then some [] else none else decodeStrictFrom at_ left (pads + 1) true l
      else decodeStrictFrom at_ left pads true l
    else
      match standardChar c with
      | none => none
      | some v =>
        if padded then none
        else
          match at_ with
          | 0 => decodeStrictFrom 1 v 0 false l
          | 1 => (decodeStrictFrom 2 (v % 16) 0 false l).map fun raw => UInt8.ofNat (left * 4 + v / 16) :: raw
          | 2 => (decodeStrictFrom 3 (v % 4) 0 false l).map fun raw => UInt8.ofNat (left * 16 + v / 4) :: raw
          | _ => (decodeStrictFrom 0 0 0 false l).map fun raw => UInt8.ofNat (left * 64 + v) :: raw

/-- `b64decode(s, validate=True)`. -/
def decodeStrict (l : List Char) : Option (List UInt8) :=
  if l.head? = some '=' then none else decodeStrictFrom 0 0 0 false l

theorem decodeChar_encodeChar {v : Nat} (h : v < 64) : encodeChar v ≠ '=' ∧ decodeChar (encodeChar v) = some v := by
  have hall : ∀ v : Fin 64, encodeChar v ≠ '=' ∧ decodeChar (encodeChar v) = some (v : Nat) := by decide +kernel
  exact hall ⟨v, h⟩

section Groups

variable {left pads v : Nat} {l : List Char}

theorem decodeFrom_first (h : v < 64) : decodeFrom 0 left pads (encodeChar v :: l) = decodeFrom 1 v 0 l := by
  obtain ⟨hne, hd⟩ := decodeChar_encodeChar h
  rw [decodeFrom, if_neg hne, hd]
  rfl

theorem decodeFrom_second (h : v < 64) : decodeFrom 1 left pads (encodeChar v :: l) =
    (decodeFrom 2 (v % 16) 0 l).map fun raw => UInt8.ofNat (left * 4 + v / 16) :: raw := by
  obtain ⟨hne, hd⟩ := decodeChar_encodeChar h
  rw [decodeFrom, if_neg hne, hd]
  rfl

theorem decodeFrom_third (h : v < 64) : decodeFrom 2 left pads (encodeChar v :: l) =
    (decodeFrom 3 (v % 4) 0 l).map fun raw => UInt8.ofNat (left * 16 + v / 4) :: raw := by
  obtain ⟨hne, hd⟩ := decodeChar_encodeChar h
  rw [decodeFrom, if_neg hne, hd]
  rfl

theorem decodeFrom_fourth (h : v < 64) : decodeFrom 3 left pads (encodeChar v :: l) =
    (decodeFrom 0 0 0 l).map fun raw => UInt8.ofNat (left * 64 + v) :: raw := by
  obtain ⟨hne, hd⟩ := decodeChar_encodeChar h
  rw [decodeFrom, if_neg hne, hd]
  rfl

end Groups

theorem ofNat_eq {a : UInt8} {n : Nat} (h : n = a.toNat) : UInt8.ofNat n = a := by
  rw [h, UInt8.ofNat_toNat]

/-- **What is encoded decodes.** -/
theorem decodeFrom_body : ∀ (raw : List UInt8) (left pads : Nat),
    decodeFrom 0 left pads (body raw ++ padding (body raw).length) = some raw
  | [], _, _ => rfl
  | [a], left, pads => by
    have ha := a.toNat_lt
    rw [body, List.cons_append, decodeFrom_first (by omega), List.cons_append, decodeFrom_second (by omega)]
    have hbyte : UInt8.ofNat (a.toNat / 4 * 4 + a.toNat % 4 * 16 / 16) = a := ofNat_eq (by omega)
    rw [hbyte]
    rfl
  | [a, b], left, pads => by
    have ha := a.toNat_lt
    have hb := b.toNat_lt
    rw [body, List.cons_append, decodeFrom_first (by omega), List.cons_append, decodeFrom_second (by omega),
      List.cons_append, decodeFrom_third (by omega)]
    have hfirst : UInt8.ofNat (a.toNat / 4 * 4 + (a.toNat % 4 * 16 + b.toNat / 16) / 16) = a := ofNat_eq (by omega)
    have hsecond : UInt8.ofNat ((a.toNat % 4 * 16 + b.toNat / 16) % 16 * 16 + b.toNat % 16 * 4 / 4) = b :=
      ofNat_eq (by omega)
    rw [hfirst, hsecond]
    rfl
  | a :: b :: c :: l, left, pads => by
    have ha := a.toNat_lt
    have hb := b.toNat_lt
    have hc := c.toNat_lt
    have hpad : padding (body (a :: b :: c :: l)).length = padding (body l).length := by
      simp only [body, List.length_cons, padding]
      congr 2
      omega
    rw [hpad, body, List.cons_append, decodeFrom_first (by omega), List.cons_append, decodeFrom_second (by omega),
      List.cons_append, decodeFrom_third (by omega), List.cons_append, decodeFrom_fourth (by omega),
      decodeFrom_body l 0 0]
    have hfirst : UInt8.ofNat (a.toNat / 4 * 4 + (a.toNat % 4 * 16 + b.toNat / 16) / 16) = a := ofNat_eq (by omega)
    have hsecond : UInt8.ofNat ((a.toNat % 4 * 16 + b.toNat / 16) % 16 * 16 + (b.toNat % 16 * 4 + c.toNat / 64) / 4) = b :=
      ofNat_eq (by omega)
    have hthird : UInt8.ofNat ((b.toNat % 16 * 4 + c.toNat / 64) % 4 * 64 + c.toNat % 64) = c := ofNat_eq (by omega)
    rw [hfirst, hsecond, hthird]
    rfl

theorem decode_encode (raw : List UInt8) : decode (encode raw) = some raw := decodeFrom_body raw 0 0

theorem mem_body {raw : List UInt8} {c : Char} (h : c ∈ body raw) : ∃ v, v < 64 ∧ c = encodeChar v := by
  induction raw using body.induct with
  | case1 => cases h
  | case2 a =>
    have ha := a.toNat_lt
    rw [body, List.mem_cons, List.mem_singleton] at h
    rcases h with rfl | rfl
    · exact ⟨_, by omega, rfl⟩
    · exact ⟨_, by omega, rfl⟩
  | case3 a b =>
    have ha := a.toNat_lt
    have hb := b.toNat_lt
    rw [body, List.mem_cons, List.mem_cons, List.mem_singleton] at h
    rcases h with rfl | rfl | rfl
    · exact ⟨_, by omega, rfl⟩
    · exact ⟨_, by omega, rfl⟩
    · exact ⟨_, by omega, rfl⟩
  | case4 a b c l ih =>
    have ha := a.toNat_lt
    have hb := b.toNat_lt
    have hc := c.toNat_lt
    rw [body, List.mem_cons, List.mem_cons, List.mem_cons, List.mem_cons] at h
    rcases h with rfl | rfl | rfl | rfl | h
    · exact ⟨_, by omega, rfl⟩
    · exact ⟨_, by omega, rfl⟩
    · exact ⟨_, by omega, rfl⟩
    · exact ⟨_, by omega, rfl⟩
    · exact ih h

/-- The characters before the padding are ASCII, and no pads. -/
theorem body_plain {raw : List UInt8} {c : Char} (h : c ∈ body raw) : c ≠ '=' ∧ c.toNat < 128 := by
  obtain ⟨v, hv, rfl⟩ := mem_body h
  have hall : ∀ v : Fin 64, encodeChar v ≠ '=' ∧ (encodeChar v).toNat < 128 := by decide +kernel
  exact hall ⟨v, hv⟩

/-- `rstrip("=")`. -/
def strip (l : List Char) : List Char := (l.reverse.dropWhile (· == '=')).reverse

theorem strip_append {l : List Char} (h : ∀ c ∈ l, c ≠ '=') (n : Nat) : strip (l ++ List.replicate n '=') = l := by
  unfold strip
  have hkeep : l.reverse.dropWhile (· == '=') = l.reverse := by
    cases hl : l.reverse with
    | nil => rfl
    | cons c r =>
      have hc : c ∈ l := List.mem_reverse.1 (by rw [hl]; exact List.mem_cons_self)
      rw [List.dropWhile_cons_of_neg (by simpa using h c hc)]
  rw [List.reverse_append, List.reverse_replicate, List.dropWhile_append_of_pos (by simp), hkeep, List.reverse_reverse]

/-- **Stripped of its pads and padded again, a text is what it was.** -/
theorem strip_encode (raw : List UInt8) :
    strip (encode raw) = body raw ∧ strip (encode raw) ++ padding (strip (encode raw)).length = encode raw := by
  have h : strip (encode raw) = body raw := strip_append (fun c hc => (body_plain hc).1) _
  exact ⟨h, by rw [h]; rfl⟩

end Base64
end Lib
