import SafeSend.Text
/-!
# Bytes that spell a character

The decoder takes the bytes of an encoded character one after another, each where it may stand, and has the character at
the last of them.  What a decoder does with a whole text, with one cut short or with one that comes in pieces is read off
that.
-/
namespace SafeSend
namespace Text

/-- The byte begins a sequence, or goes on with the one begun. -/
def Goes (st : Option Pending) (b : Nat) : Prop :=
  match st with
  | none => lead b ≠ (none, none)
  | some p => p.lo ≤ b ∧ b ≤ p.hi

/-- From there on, the bytes are the character's. -/
inductive Spells : Option Pending → Bytes → Char → Prop
  | last {st : Option Pending} {b : UInt8} {c : Char} (hb : Goes st b.toNat) (h : feed st b.toNat = (some c, none)) :
    Spells st [b] c
  | more {st : Option Pending} {b : UInt8} {p : Pending} {l : Bytes} {c : Char} (hb : Goes st b.toNat)
    (h : feed st b.toNat = (none, some p)) (hl : Spells (some p) l c) : Spells st (b :: l) c

theorem toNat_byte {k : Nat} (h : k < 256) : (UInt8.ofNat k).toNat = k := by
  rw [UInt8.toNat_ofNat']
  omega

section Tails

variable {lo hi acc left k : Nat} {l : Bytes} {c : Char}

theorem spells_last (hk : k < 64) (hlo : lo ≤ 0x80 + k) (hhi : 0x80 + k ≤ hi) (hc : acc * 64 + k = c.toNat) :
    Spells (some ⟨lo, hi, acc, 1⟩) [.ofNat (0x80 + k)] c := by
  have hbyte : (UInt8.ofNat (0x80 + k)).toNat = 0x80 + k := toNat_byte (by omega)
  have hbits : (0x80 + k) % 64 = k := by omega
  refine .last (by rw [hbyte]; exact ⟨hlo, hhi⟩) ?_
  unfold feed
  rw [hbyte]
  simp only
  rw [if_pos ⟨hlo, hhi⟩, if_pos trivial, hbits, hc, Char.ofNat_toNat]

theorem spells_more (hk : k < 64) (hlo : lo ≤ 0x80 + k) (hhi : 0x80 + k ≤ hi)
    (hl : Spells (some ⟨0x80, 0xBF, acc * 64 + k, left + 1⟩) l c) :
    Spells (some ⟨lo, hi, acc, left + 2⟩) (.ofNat (0x80 + k) :: l) c := by
  have hbyte : (UInt8.ofNat (0x80 + k)).toNat = 0x80 + k := toNat_byte (by omega)
  have hbits : (0x80 + k) % 64 = k := by omega
  refine .more (by rw [hbyte]; exact ⟨hlo, hhi⟩) ?_ hl
  unfold feed
  rw [hbyte]
  simp only
  rw [if_pos ⟨hlo, hhi⟩, if_neg (by omega), hbits]
  rfl

theorem spells_lead {b : Nat} (hb : b < 256) {p : Pending} (h : lead b = (none, some p)) (hl : Spells (some p) l c) :
    Spells none (.ofNat b :: l) c := by
  refine .more ?_ ?_ hl
  · rw [toNat_byte hb]
    intro hnone
    rw [h] at hnone
    cases hnone
  · rw [toNat_byte hb]
    exact h

end Tails

theorem lead_two {n : Nat} (hlo : 0x80 ≤ n) (hhi : n < 0x800) :
    lead (0xC0 + n / 64) = (none, some ⟨0x80, 0xBF, n / 64, 1⟩) := by
  have hbits : (0xC0 + n / 64) % 32 = n / 64 := by omega
  unfold lead
  rw [if_neg (by omega), if_neg (by omega), if_pos (by omega), hbits]

/-- The second byte is bounded so that no longer sequence than needed and no surrogate is spelled. -/
theorem lead_three {n : Nat} (hlo : 0x800 ≤ n) (hhi : n < 0x10000) (hscalar : n < 0xD800 ∨ 0xDFFF < n) :
    ∃ lo hi, lead (0xE0 + n / 4096) = (none, some ⟨lo, hi, n / 4096, 2⟩) ∧ lo ≤ 0x80 + n / 64 % 64 ∧
      0x80 + n / 64 % 64 ≤ hi := by
  have hbits : (0xE0 + n / 4096) % 16 = n / 4096 := by omega
  unfold lead
  rw [if_neg (by omega), if_neg (by omega), if_neg (by omega), hbits]
  by_cases hE0 : 0xE0 + n / 4096 = 0xE0
  · rw [if_pos hE0]
    exact ⟨0xA0, 0xBF, rfl, by omega, by omega⟩
  · rw [if_neg hE0]
    by_cases hED : 0xE0 + n / 4096 = 0xED
    · rw [if_pos hED]
      exact ⟨0x80, 0x9F, rfl, by omega, by omega⟩
    · rw [if_neg hED, if_pos (by omega)]
      exact ⟨0x80, 0xBF, rfl, by omega, by omega⟩

theorem lead_four {n : Nat} (hlo : 0x10000 ≤ n) (hhi : n < 0x110000) :
    ∃ lo hi, lead (0xF0 + n / 262144) = (none, some ⟨lo, hi, n / 262144, 3⟩) ∧ lo ≤ 0x80 + n / 4096 % 64 ∧
      0x80 + n / 4096 % 64 ≤ hi := by
  have hbits : (0xF0 + n / 262144) % 8 = n / 262144 := by omega
  unfold lead
  rw [if_neg (by omega), if_neg (by omega), if_neg (by omega), if_neg (by omega), if_neg (by omega), if_neg (by omega),
    hbits]
  by_cases hF0 : 0xF0 + n / 262144 = 0xF0
  · rw [if_pos hF0]
    exact ⟨0x90, 0xBF, rfl, by omega, by omega⟩
  · rw [if_neg hF0]
    by_cases hF4 : 0xF0 + n / 262144 < 0xF4
    · rw [if_pos hF4]
      exact ⟨0x80, 0xBF, rfl, by omega, by omega⟩
    · rw [if_neg hF4, if_pos (by omega)]
      exact ⟨0x80, 0x8F, rfl, by omega, by omega⟩

theorem scalar (c : Char) : c.toNat < 0xD800 ∨ 0xDFFF < c.toNat ∧ c.toNat < 0x110000 := by
  have h := c.valid
  have hv : c.toNat = c.val.toNat := rfl
  simp only [UInt32.isValidChar, Nat.isValidChar] at h
  omega

/-- **An encoded character is spelled.** -/
theorem spells_encodeChar (c : Char) : Spells none (encodeChar c) c := by
  have hscalar := scalar c
  unfold encodeChar
  simp only
  by_cases h1 : c.toNat < 0x80
  · rw [if_pos h1]
    have hbyte : (UInt8.ofNat c.toNat).toNat = c.toNat := toNat_byte (by omega)
    have hlead : lead c.toNat = (some c, none) := by
      unfold lead
      rw [if_pos h1, Char.ofNat_toNat]
    refine .last ?_ (by rw [hbyte]; exact hlead)
    rw [hbyte]
    intro hnone
    rw [hlead] at hnone
    cases hnone
  · rw [if_neg h1]
    by_cases h2 : c.toNat < 0x800
    · rw [if_pos h2]
      exact spells_lead (by omega) (lead_two (by omega) h2) (spells_last (by omega) (by omega) (by omega) (by omega))
    · rw [if_neg h2]
      by_cases h3 : c.toNat < 0x10000
      · rw [if_pos h3]
        obtain ⟨lo, hi, hlead, hlo, hhi⟩ := lead_three (by omega) h3 (by omega)
        refine spells_lead (by omega) hlead (spells_more (by omega) hlo hhi ?_)
        exact spells_last (by omega) (by omega) (by omega) (by omega)
      · rw [if_neg h3]
        obtain ⟨lo, hi, hlead, hlo, hhi⟩ := lead_four (n := c.toNat) (by omega) (by omega)
        refine spells_lead (by omega) hlead (spells_more (by omega) hlo hhi (spells_more (by omega) (by omega) (by omega) ?_))
        exact spells_last (by omega) (by omega) (by omega) (by omega)

/-! ## Decoding with `errors="ignore"` -/

theorem Spells.decodeFrom {st : Option Pending} {l : Bytes} {c : Char} (h : Spells st l c) (rest : Bytes) :
    decodeFrom st (l ++ rest) = c :: Text.decodeFrom none rest := by
  induction h with
  | last hb h =>
    rw [List.cons_append, List.nil_append, Text.decodeFrom, h]
    rfl
  | more hb h hl ih =>
    rw [List.cons_append, Text.decodeFrom, h]
    exact ih

/-- Cut short, it is no character. -/
theorem Spells.decodeFrom_short {st : Option Pending} {l : Bytes} {c : Char} (h : Spells st l c) :
    ∀ {r : Bytes}, r <+: l → r.length < l.length → Text.decodeFrom st r = [] := by
  induction h with
  | last hb h =>
    intro r _ hshort
    have hr : r = [] := List.length_eq_zero_iff.1 (by simpa using hshort)
    rw [hr]
    rfl
  | more hb h hl ih =>
    intro r hr hshort
    cases r with
    | nil => rfl
    | cons b r =>
      obtain ⟨rfl, htail⟩ := List.cons_prefix_cons.1 hr
      rw [Text.decodeFrom, h]
      exact ih htail (Nat.lt_of_succ_lt_succ hshort)

theorem decodeFrom_flatMap (rest : Bytes) : ∀ l : List Char,
    decodeFrom none (l.flatMap encodeChar ++ rest) = l ++ decodeFrom none rest
  | [] => rfl
  | c :: l => by
    rw [List.flatMap_cons, List.append_assoc, (spells_encodeChar c).decodeFrom, decodeFrom_flatMap rest l]
    rfl

end Text
end SafeSend
