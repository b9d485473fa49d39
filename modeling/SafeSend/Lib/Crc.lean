import Mathlib.Algebra.Order.Ring.Nat
import Mathlib.Data.Nat.Bitwise
/-!
# Cyclic redundancy checks

A reflected check of `w` bits: a register that is shifted right, its polynomial added where a one comes out, and fed byte
by byte at its low end.  Shifting adds up under exclusive or and loses nothing where the polynomial has its top bit, so a
burst no longer than the register always shows.
-/
namespace Lib
namespace Crc

variable {w poly : Nat}

/-- One bit out of the low end. -/
def shift (poly n : Nat) : Nat := if n % 2 = 1 then n / 2 ^^^ poly else n / 2

def shifts (poly : Nat) : Nat → Nat → Nat
  | 0, n => n
  | k + 1, n => shifts poly k (shift poly n)

def feed (poly r : Nat) (b : UInt8) : Nat := shifts poly 8 (r ^^^ b.toNat)

/-- The register after some bytes. -/
def register (poly r : Nat) (l : List UInt8) : Nat := l.foldl (feed poly) r

/-- The check of some bytes: it starts with all ones, and is complemented. -/
def crc (w poly : Nat) (l : List UInt8) : Nat := register poly (2 ^ w - 1) l ^^^ (2 ^ w - 1)

/-! ## Shifting -/

theorem shift_xor (a b : Nat) : shift poly (a ^^^ b) = shift poly a ^^^ shift poly b := by
  unfold shift
  rw [Nat.xor_div_two]
  have hodd : (a ^^^ b) % 2 = 1 ↔ ¬(a % 2 = 1 ↔ b % 2 = 1) := Nat.xor_mod_two_eq_one
  by_cases ha : a % 2 = 1 <;> by_cases hb : b % 2 = 1
  · rw [if_neg (by rw [hodd]; simp [ha, hb]), if_pos ha, if_pos hb, Nat.xor_assoc, Nat.xor_comm poly,
      Nat.xor_assoc, Nat.xor_self, Nat.xor_zero]
  · rw [if_pos (by rw [hodd]; simp [ha, hb]), if_pos ha, if_neg hb, Nat.xor_assoc, Nat.xor_comm _ poly, ← Nat.xor_assoc]
  · rw [if_pos (by rw [hodd]; simp [ha, hb]), if_neg ha, if_pos hb, Nat.xor_assoc]
  · rw [if_neg (by rw [hodd]; simp [ha, hb]), if_neg ha, if_neg hb]

theorem shifts_xor : ∀ k a b : Nat, shifts poly k (a ^^^ b) = shifts poly k a ^^^ shifts poly k b
  | 0, _, _ => rfl
  | k + 1, a, b => by rw [shifts, shift_xor, shifts_xor k]; rfl

theorem shifts_add (j : Nat) : ∀ k n : Nat, shifts poly (k + j) n = shifts poly j (shifts poly k n)
  | 0, n => by rw [Nat.zero_add]; rfl
  | k + 1, n => by rw [Nat.add_right_comm, shifts, shifts, shifts_add j k]

/-- Zeros at the low end only move out. -/
theorem shifts_mul (n : Nat) : ∀ k : Nat, shifts poly k (n * 2 ^ k) = n
  | 0 => by rw [Nat.pow_zero, Nat.mul_one]; rfl
  | k + 1 => by
    have heven : n * 2 ^ (k + 1) = 2 * (n * 2 ^ k) := by rw [Nat.pow_succ, ← Nat.mul_assoc, Nat.mul_comm]
    have hshift : shift poly (n * 2 ^ (k + 1)) = n * 2 ^ k := by
      unfold shift
      rw [heven, if_neg (by omega), Nat.mul_div_cancel_left _ (by decide)]
    rw [shifts, hshift, shifts_mul n k]

/-- The polynomial fills the register. -/
structure Full (w poly : Nat) : Prop where
  pos : 0 < w
  top : 2 ^ (w - 1) ≤ poly
  fits : poly < 2 ^ w

theorem Full.shift_lt (h : Full w poly) {n : Nat} (hn : n < 2 ^ w) : shift poly n < 2 ^ w := by
  have hhalf : n / 2 < 2 ^ w := lt_of_le_of_lt (Nat.div_le_self n 2) hn
  unfold shift
  split
  · exact Nat.xor_lt_two_pow hhalf h.fits
  · exact hhalf

/-- A register that shifts to zero was zero. -/
theorem Full.shift_eq_zero (h : Full w poly) {n : Nat} (hn : n < 2 ^ w) (hz : shift poly n = 0) : n = 0 := by
  have hpow : 2 ^ w = 2 * 2 ^ (w - 1) := by
    rw [← Nat.pow_succ', Nat.succ_eq_add_one, Nat.sub_add_cancel h.pos]
  have htop := h.top
  unfold shift at hz
  by_cases hodd : n % 2 = 1
  · rw [if_pos hodd] at hz
    have hpoly : n / 2 = poly := Nat.xor_eq_zero_iff.1 hz
    omega
  · rw [if_neg hodd] at hz
    omega

theorem Full.shifts_lt (h : Full w poly) : ∀ (k : Nat) {n : Nat}, n < 2 ^ w → shifts poly k n < 2 ^ w
  | 0, _, hn => hn
  | k + 1, _, hn => h.shifts_lt k (h.shift_lt hn)

theorem Full.shifts_eq_zero (h : Full w poly) : ∀ (k : Nat) {n : Nat}, n < 2 ^ w → shifts poly k n = 0 → n = 0
  | 0, _, _, hz => hz
  | k + 1, _, hn, hz => h.shift_eq_zero hn (h.shifts_eq_zero k (h.shift_lt hn) hz)

/-- **Shifting loses nothing.** -/
theorem Full.shifts_inj (h : Full w poly) (k : Nat) {a b : Nat} (ha : a < 2 ^ w) (hb : b < 2 ^ w)
    (heq : shifts poly k a = shifts poly k b) : a = b := by
  have hz : shifts poly k (a ^^^ b) = 0 := by rw [shifts_xor, heq, Nat.xor_self]
  exact Nat.xor_eq_zero_iff.1 (h.shifts_eq_zero k (Nat.xor_lt_two_pow ha hb) hz)

/-! ## Feeding -/

/-- Some bytes as one number, the first at the low end. -/
def word : List UInt8 → Nat
  | [] => 0
  | b :: l => b.toNat ^^^ word l * 2 ^ 8

theorem word_lt : ∀ l : List UInt8, word l < 2 ^ (8 * l.length)
  | [] => by decide
  | b :: l => by
    have hl := word_lt l
    have hpow : 2 ^ (8 * (b :: l).length) = 2 ^ (8 * l.length) * 2 ^ 8 := by
      rw [List.length_cons, Nat.mul_add, Nat.pow_add]
    have hb : b.toNat < 2 ^ 8 := b.toNat_lt
    rw [word]
    refine Nat.xor_lt_two_pow ?_ ?_
    · rw [hpow]
      exact lt_of_lt_of_le hb (Nat.le_mul_of_pos_left _ (Nat.two_pow_pos _))
    · rw [hpow]
      exact Nat.mul_lt_mul_of_pos_right hl (by decide)

theorem word_inj : ∀ {l m : List UInt8}, l.length = m.length → word l = word m → l = m
  | [], [], _, _ => rfl
  | b :: l, c :: m, hlength, heq => by
    have hb : b.toNat < 2 ^ 8 := b.toNat_lt
    have hc : c.toNat < 2 ^ 8 := c.toNat_lt
    have low (x : UInt8) (n : Nat) : (x.toNat ^^^ n * 2 ^ 8) % 2 ^ 8 = x.toNat := by
      rw [Nat.xor_mod_two_pow, Nat.mul_mod_left, Nat.xor_zero, Nat.mod_eq_of_lt x.toNat_lt]
    have high (x : UInt8) (n : Nat) : (x.toNat ^^^ n * 2 ^ 8) / 2 ^ 8 = n := by
      rw [Nat.xor_div_two_pow, Nat.div_eq_of_lt x.toNat_lt, Nat.zero_xor, Nat.mul_div_cancel _ (by decide)]
    have hbyte : b.toNat = c.toNat := by
      have := congrArg (· % 2 ^ 8) heq
      simpa only [word, low] using this
    have hrest : word l = word m := by
      have := congrArg (· / 2 ^ 8) heq
      simpa only [word, high] using this
    rw [UInt8.toNat_inj.1 hbyte, word_inj (Nat.succ.inj hlength) hrest]

/-- **Bytes may all be added first, and shifted out then.** -/
theorem register_eq : ∀ (l : List UInt8) (r : Nat), register poly r l = shifts poly (8 * l.length) (r ^^^ word l)
  | [], r => by rw [word, Nat.xor_zero]; rfl
  | b :: l, r => by
    have hlater : word l = shifts poly 8 (word l * 2 ^ 8) := (shifts_mul _ 8).symm
    have hsum : 8 * (b :: l).length = 8 + 8 * l.length := by
      rw [List.length_cons]
      omega
    calc register poly r (b :: l)
        = shifts poly (8 * l.length) (shifts poly 8 (r ^^^ b.toNat) ^^^ word l) := register_eq l _
      _ = shifts poly (8 * l.length) (shifts poly 8 (r ^^^ b.toNat) ^^^ shifts poly 8 (word l * 2 ^ 8)) := by
          rw [← hlater]
      _ = shifts poly (8 * (b :: l).length) (r ^^^ word (b :: l)) := by
          rw [← shifts_xor, ← shifts_add, hsum, Nat.xor_assoc]
          rfl

theorem Full.feed_lt (h : Full w poly) (hw : 8 ≤ w) {r : Nat} (hr : r < 2 ^ w) (b : UInt8) : feed poly r b < 2 ^ w :=
  h.shifts_lt 8 (Nat.xor_lt_two_pow hr (lt_of_lt_of_le b.toNat_lt (Nat.pow_le_pow_right (by decide) hw)))

theorem Full.register_lt (h : Full w poly) (hw : 8 ≤ w) : ∀ (l : List UInt8) {r : Nat}, r < 2 ^ w →
    register poly r l < 2 ^ w
  | [], _, hr => hr
  | b :: l, _, hr => h.register_lt hw l (h.feed_lt hw hr b)

/-- Two registers fed alike stay apart. -/
theorem Full.register_inj (h : Full w poly) (hw : 8 ≤ w) : ∀ (l : List UInt8) {r s : Nat}, r < 2 ^ w → s < 2 ^ w →
    register poly r l = register poly s l → r = s
  | [], _, _, _, _, heq => heq
  | b :: l, r, s, hr, hs, heq => by
    have hb : b.toNat < 2 ^ w := lt_of_lt_of_le b.toNat_lt (Nat.pow_le_pow_right (by decide) hw)
    have hfed := h.register_inj hw l (h.feed_lt hw hr b) (h.feed_lt hw hs b) heq
    have hadded := h.shifts_inj 8 (Nat.xor_lt_two_pow hr hb) (Nat.xor_lt_two_pow hs hb) hfed
    exact Nat.xor_left_inj.1 hadded

/-- **A burst no longer than the register changes the check.** -/
theorem Full.crc_burst (h : Full w poly) (hw : 8 ≤ w) {before burst other after : List UInt8}
    (hlength : other.length = burst.length) (hshort : 8 * burst.length ≤ w)
    (heq : crc w poly (before ++ other ++ after) = crc w poly (before ++ burst ++ after)) : other = burst := by
  have hones : 2 ^ w - 1 < 2 ^ w := Nat.sub_lt (Nat.two_pow_pos w) (by decide)
  have hstart := h.register_lt hw before hones
  have fits {l : List UInt8} (hl : 8 * l.length ≤ w) : word l < 2 ^ w :=
    lt_of_lt_of_le (word_lt l) (Nat.pow_le_pow_right (by decide) hl)
  have hsplit (l : List UInt8) : register poly (2 ^ w - 1) (before ++ l ++ after) =
      register poly (register poly (register poly (2 ^ w - 1) before) l) after := by
    unfold register
    rw [List.foldl_append, List.foldl_append]
  have hends := Nat.xor_left_inj.1 heq
  rw [hsplit, hsplit] at hends
  have hblocks := h.register_inj hw after (h.register_lt hw other hstart) (h.register_lt hw burst hstart) hends
  rw [register_eq other, register_eq burst, hlength] at hblocks
  have hadded := h.shifts_inj _ (Nat.xor_lt_two_pow hstart (fits (hlength ▸ hshort)))
    (Nat.xor_lt_two_pow hstart (fits hshort)) hblocks
  exact word_inj hlength (Nat.xor_right_inj.1 hadded)

theorem Full.crc_lt (h : Full w poly) (hw : 8 ≤ w) (l : List UInt8) : crc w poly l < 2 ^ w :=
  Nat.xor_lt_two_pow (h.register_lt hw l (Nat.sub_lt (Nat.two_pow_pos w) (by decide)))
    (Nat.sub_lt (Nat.two_pow_pos w) (by decide))

end Crc
end Lib
