import Mathlib.Algebra.Group.Nat.Defs
import Mathlib.Tactic.Common
/-!
# Numerals of fixed width

A number written with a fixed count of digits in a base up to sixteen, and read back.
-/
namespace Lib

/-- What holds of all characters of a text is decided over the text, not over all there are. -/
instance (priority := 2000) decidableForallChar (l : List Char) (p : Char → Prop) [DecidablePred p] :
    Decidable (∀ c ∈ l, p c) := List.decidableBAll p l

def digitChar (d : Nat) : Char :=
  match d with
  | 0 => '0' | 1 => '1' | 2 => '2' | 3 => '3' | 4 => '4' | 5 => '5' | 6 => '6' | 7 => '7'
  | 8 => '8' | 9 => '9' | 10 => 'a' | 11 => 'b' | 12 => 'c' | 13 => 'd' | 14 => 'e' | _ => 'f'

/-- The value of a digit, either case. -/
def digitVal (c : Char) : Option Nat :=
  let n := c.toNat
  if 48 ≤ n ∧ n ≤ 57 then some (n - 48)
  else if 97 ≤ n ∧ n ≤ 102 then some (n - 87)
  else if 65 ≤ n ∧ n ≤ 70 then some (n - 55)
  else none

/-- The last `k` digits of a number, the most significant first. -/
def numeral (b : Nat) : Nat → Nat → List Char
  | 0, _ => []
  | k + 1, n => digitChar (n / b ^ k % b) :: numeral b k n

theorem length_numeral (b n : Nat) : ∀ k, (numeral b k n).length = k
  | 0 => rfl
  | k + 1 => by rw [numeral, List.length_cons, length_numeral b n k]

/-- Exactly `k` digits from the front, after those that made `acc`. -/
def readNumeral (b : Nat) : Nat → Nat → List Char → Option (Nat × List Char)
  | 0, acc, l => some (acc, l)
  | _ + 1, _, [] => none
  | k + 1, acc, c :: l =>
    match digitVal c with
    | none => none
    | some d => if d < b then readNumeral b k (acc * b + d) l else none

theorem digitVal_digitChar {d : Nat} (h : d < 16) : digitVal (digitChar d) = some d := by
  have hall : ∀ d : Fin 16, digitVal (digitChar d) = some (d : Nat) := by decide
  exact hall ⟨d, h⟩

/-- **A numeral reads back**, and what follows it is left alone. -/
theorem readNumeral_append {b : Nat} (hpos : 0 < b) (hb : b ≤ 16) (n : Nat) (l : List Char) :
    ∀ k acc, readNumeral b k acc (numeral b k n ++ l) = some (acc * b ^ k + n % b ^ k, l)
  | 0, acc => by simp [readNumeral, numeral, Nat.mod_one]
  | k + 1, acc => by
    have hd : n / b ^ k % b < b := Nat.mod_lt _ hpos
    rw [numeral, List.cons_append, readNumeral, digitVal_digitChar (Nat.lt_of_lt_of_le hd hb)]
    show (if n / b ^ k % b < b then _ else _) = _
    rw [if_pos hd, readNumeral_append hpos hb n l k]
    congr 2
    calc (acc * b + n / b ^ k % b) * b ^ k + n % b ^ k
        = acc * b * b ^ k + (n % b ^ k + b ^ k * (n / b ^ k % b)) := by
          rw [Nat.add_mul, Nat.mul_comm (n / b ^ k % b), Nat.add_assoc, Nat.add_comm (b ^ k * _)]
      _ = acc * b ^ (k + 1) + n % b ^ (k + 1) := by
          rw [← Nat.mod_pow_succ, Nat.pow_succ, Nat.mul_assoc, Nat.mul_comm b]

/-- Of a number that fits, nothing is lost. -/
theorem readNumeral_numeral {b k n : Nat} (hpos : 0 < b) (hb : b ≤ 16) (h : n < b ^ k) (l : List Char) :
    readNumeral b k 0 (numeral b k n ++ l) = some (n, l) := by
  rw [readNumeral_append hpos hb, Nat.zero_mul, Nat.zero_add, Nat.mod_eq_of_lt h]

/-- The digits are among `0`–`9` and `a`–`f`. -/
theorem mem_numeral {b k n : Nat} {c : Char} (hpos : 0 < b) (hb : b ≤ 16) (h : c ∈ numeral b k n) :
    ∃ d, d < 16 ∧ c = digitChar d := by
  induction k with
  | zero => cases h
  | succ k ih =>
    rw [numeral, List.mem_cons] at h
    rcases h with rfl | h
    · exact ⟨_, Nat.lt_of_lt_of_le (Nat.mod_lt _ hpos) hb, rfl⟩
    · exact ih h

/-- **A character that is no digit is not in a numeral.** -/
theorem not_mem_numeral {b k n : Nat} {c : Char} (hpos : 0 < b) (hb : b ≤ 16)
    (hc : ∀ d : Fin 16, digitChar d ≠ c) : c ∉ numeral b k n := by
  intro h
  obtain ⟨d, hd, he⟩ := mem_numeral hpos hb h
  exact hc ⟨d, hd⟩ he.symm

end Lib
