import Mathlib.Data.UInt
import Mathlib.Tactic.Common
/-!
# Query strings

`application/x-www-form-urlencoded`: names and values as bytes, percent-encoded, joined by `=` and `&`.  Whatever the bytes
are, what is written is read back.
-/
namespace Lib
namespace Urlencoded

abbrev Bytes := List UInt8

/-- Letters, digits and `_.-~` stand for themselves. -/
def unreserved (n : Nat) : Bool :=
  (0x30 ≤ n && n ≤ 0x39) || (0x41 ≤ n && n ≤ 0x5A) || (0x61 ≤ n && n ≤ 0x7A) || n == 0x2D || n == 0x2E || n == 0x5F || n == 0x7E

/-- An upper case hexadecimal digit. -/
def hexDigit (n : Nat) : Char := Char.ofNat (if n < 10 then 0x30 + n else 0x37 + n)

def hexValue (c : Char) : Option Nat :=
  let n := c.toNat
  if 0x30 ≤ n ∧ n ≤ 0x39 then some (n - 0x30)
  else if 0x41 ≤ n ∧ n ≤ 0x46 then some (n - 0x37)
  else if 0x61 ≤ n ∧ n ≤ 0x66 then some (n - 0x57)
  else none

def quoteByte (b : UInt8) : List Char :=
  let n := b.toNat
  if unreserved n then [Char.ofNat n]
  else if n = 0x20 then ['+']
  else ['%', hexDigit (n / 16), hexDigit (n % 16)]

def quote (bytes : Bytes) : List Char := bytes.flatMap quoteByte

/-- What is no escape stands for itself. -/
def unquote : List Char → Bytes
  | [] => []
  | '%' :: a :: b :: l =>
    match hexValue a, hexValue b with
    | some x, some y => UInt8.ofNat (16 * x + y) :: unquote l
    | _, _ => 0x25 :: unquote (a :: b :: l)
  | c :: l => if c = '+' then 0x20 :: unquote l else String.utf8EncodeChar c ++ unquote l

def field (f : Bytes × Bytes) : List Char := quote f.1 ++ '=' :: quote f.2

def encode (fields : List (Bytes × Bytes)) : List Char := ['&'].intercalate (fields.map field)

/-- The name is what comes before the first `=`; a field without one has an empty value. -/
def readField (part : List Char) : Bytes × Bytes :=
  (unquote (part.takeWhile (· ≠ '=')), unquote ((part.dropWhile (· ≠ '=')).drop 1))

def parse (query : List Char) : List (Bytes × Bytes) :=
  ((query.splitOn '&').filter fun part => !part.isEmpty).map readField

/-! ## One byte -/

theorem hexValue_hexDigit : ∀ n, n < 16 → hexValue (hexDigit n) = some n := by decide

/-- An unreserved byte is its own character, and none that the syntax is made of. -/
theorem unreserved_char : ∀ n, n < 256 → unreserved n = true →
    (Char.ofNat n ≠ '%' ∧ Char.ofNat n ≠ '+' ∧ Char.ofNat n ≠ '&' ∧ Char.ofNat n ≠ '=') ∧
      String.utf8EncodeChar (Char.ofNat n) = [UInt8.ofNat n] := by decide +kernel

theorem unquote_plain {c : Char} (hpercent : c ≠ '%') (hplus : c ≠ '+') (l : List Char) :
    unquote (c :: l) = String.utf8EncodeChar c ++ unquote l := by
  rw [unquote.eq_def]
  split
  next h => cases h
  next h => exact absurd (List.cons.inj h).1 hpercent
  next h =>
    obtain ⟨rfl, rfl⟩ := List.cons.inj h
    exact if_neg hplus

/-- **What is written of a byte is read back**, whatever follows. -/
theorem unquote_quoteByte (b : UInt8) (l : List Char) : unquote (quoteByte b ++ l) = b :: unquote l := by
  have hb : b.toNat < 256 := b.toNat_lt
  unfold quoteByte
  dsimp only
  split
  next hu =>
    obtain ⟨⟨hpercent, hplus, -, -⟩, hbytes⟩ := unreserved_char b.toNat hb hu
    rw [List.singleton_append, unquote_plain hpercent hplus, hbytes, UInt8.ofNat_toNat]
    rfl
  next =>
    split
    next hspace =>
      have : b = 0x20 := UInt8.toNat_inj.1 hspace
      rw [this]
      rfl
    next =>
      have hvalue : 16 * (b.toNat / 16) + b.toNat % 16 = b.toNat := Nat.div_add_mod _ _
      show unquote ('%' :: hexDigit (b.toNat / 16) :: hexDigit (b.toNat % 16) :: l) = _
      rw [unquote, hexValue_hexDigit _ (by omega), hexValue_hexDigit _ (Nat.mod_lt _ (by decide))]
      dsimp only
      rw [hvalue, UInt8.ofNat_toNat]

/-- Nothing that is written of a byte is a mark between fields, between the parts of a URL, a blank or a control. -/
def Plain (c : Char) : Prop := (c ≠ '&' ∧ c ≠ '=') ∧ 0x20 < c.toNat ∧ c ≠ '#'

instance (c : Char) : Decidable (Plain c) := inferInstanceAs (Decidable (_ ∧ _))

theorem quoteByte_plain (b : UInt8) : ∀ c ∈ quoteByte b, Plain c := by
  have hall : ∀ n, n < 256 → ∀ c ∈ quoteByte (UInt8.ofNat n), Plain c := by decide +kernel
  have hb := hall b.toNat b.toNat_lt
  rwa [UInt8.ofNat_toNat] at hb

/-! ## Fields -/

theorem unquote_quote (bytes : Bytes) : unquote (quote bytes) = bytes := by
  induction bytes with
  | nil => rfl
  | cons b bytes ih =>
    unfold quote at ih ⊢
    rw [List.flatMap_cons, unquote_quoteByte, ih]

theorem quote_plain (bytes : Bytes) : ∀ c ∈ quote bytes, Plain c := by
  intro c hc
  obtain ⟨b, -, hc⟩ := List.mem_flatMap.1 hc
  exact quoteByte_plain b c hc

theorem readField_field (f : Bytes × Bytes) : readField (field f) = f := by
  have hname : ∀ c ∈ quote f.1, decide (c ≠ '=') = true := fun c hc => decide_eq_true (quote_plain f.1 c hc).1.2
  unfold readField field
  rw [List.takeWhile_append_of_pos hname, List.dropWhile_append_of_pos hname, List.takeWhile_cons_of_neg (by simp),
    List.dropWhile_cons_of_neg (by simp), List.append_nil, List.drop_one, List.tail_cons, unquote_quote, unquote_quote]

theorem field_plain (f : Bytes × Bytes) : '&' ∉ field f := by
  intro h
  rcases List.mem_append.1 h with h | h
  · exact (quote_plain f.1 _ h).1.1 rfl
  · rcases List.mem_cons.1 h with h | h
    · cases h
    · exact (quote_plain f.2 _ h).1.1 rfl

theorem field_safe (f : Bytes × Bytes) : ∀ c ∈ field f, 0x20 < c.toNat ∧ c ≠ '#' := by
  intro c hc
  rcases List.mem_append.1 hc with hc | hc
  · exact (quote_plain f.1 c hc).2
  · rcases List.mem_cons.1 hc with rfl | hc
    · decide
    · exact (quote_plain f.2 c hc).2

/-- **A query can stand in a URL**: nothing in it ends it, and there is no blank in it. -/
theorem encode_safe (fields : List (Bytes × Bytes)) : ∀ c ∈ encode fields, 0x20 < c.toNat ∧ c ≠ '#' := by
  induction fields with
  | nil => exact fun c hc => by cases hc
  | cons f fields ih =>
    intro c hc
    cases fields with
    | nil =>
      unfold encode at hc
      rw [List.map_singleton, List.intercalate_singleton] at hc
      exact field_safe f c hc
    | cons g fields =>
      unfold encode at hc ih
      rw [List.map_cons, List.map_cons, List.intercalate_cons_cons, List.append_assoc] at hc
      rcases List.mem_append.1 hc with hc | hc
      · exact field_safe f c hc
      · rcases List.mem_append.1 hc with hc | hc
        · rw [List.mem_singleton.1 hc]
          decide
        · exact ih c hc

theorem field_isEmpty (f : Bytes × Bytes) : (field f).isEmpty = false :=
  List.isEmpty_eq_false_iff.2 (List.append_ne_nil_of_right_ne_nil _ (List.cons_ne_nil _ _))

/-- **What is written is read back.** -/
theorem parse_encode (fields : List (Bytes × Bytes)) : parse (encode fields) = fields := by
  cases fields with
  | nil => rfl
  | cons f fields =>
    have hsplit : (encode (f :: fields)).splitOn '&' = (f :: fields).map field := by
      refine List.splitOn_intercalate '&' (fun l hl => ?_) (List.cons_ne_nil _ _)
      obtain ⟨g, -, rfl⟩ := List.mem_map.1 hl
      exact field_plain g
    have hkeep : (((f :: fields).map field).filter fun part => !part.isEmpty) = (f :: fields).map field := by
      refine List.filter_eq_self.2 fun l hl => ?_
      obtain ⟨g, -, rfl⟩ := List.mem_map.1 hl
      rw [field_isEmpty]
      rfl
    unfold parse
    rw [hsplit, hkeep, List.map_map]
    exact (List.map_congr_left fun g _ => readField_field g).trans (List.map_id _)

end Urlencoded
end Lib
