import SafeSend.Connections.State
/-!
# What the callback makes of a state

A state of ours verifies in its window.  Any other text should be refused as invalid, and is unless the comparison of its
signature raises first: a body or a signature outside ASCII is an exception of another kind, which nothing catches.
-/
namespace SafeSend
namespace Connections

open Lib Crypto

variable {ring : Keyring} {raw : String} {now : Int}

/-- The text between its body and its signature. -/
def halves (raw : String) : List Char × List Char := Paging.partition '.' raw.toList

/-- HMAC is not forged: a text whose signature verifies is one that was signed. -/
def Unforged (ring : Keyring) (raw : String) : Prop :=
  (halves raw).2 = signature ring (halves raw).1 → ∃ s, raw = sign ring s

/-- Nothing outside ASCII is compared: a half is missing, or both are ASCII. -/
def comparable (raw : String) : Bool :=
  (halves raw).1.isEmpty || (halves raw).2.isEmpty || ascii (halves raw).1 && ascii (halves raw).2

/-- A state of ours verifies for the whole of its window; a text that is none, or whose window is over, is answered
`state_invalid`. -/
structure AsClaimed (ring : Keyring) (raw : String) (now : Int) : Prop where
  roundTrip : ∀ s, raw = sign ring s → s.issuedAt * SECOND ≤ now → now ≤ (s.issuedAt + STATE_TTL_SECONDS) * SECOND →
    verify ring raw now = .ok s
  refused : (∀ s, raw = sign ring s → s.issuedAt + STATE_TTL_SECONDS < wholeSeconds now) →
    ∃ e answer, verify ring raw now = .error e ∧ e.answer = some answer ∧ answer.code = "state_invalid"

/-- **The window is counted in whole seconds**, and holds every instant up to its end. -/
theorem wholeSeconds_le {n : Int} (h : now ≤ n * SECOND) : wholeSeconds now ≤ n := by
  have hmono := Int.tdiv_le_tdiv (c := SECOND) (by decide) h
  rw [Int.mul_tdiv_cancel _ (by decide)] at hmono
  exact hmono

theorem invalid_answered {detail : String} (h : verify ring raw now = .error (.stateInvalid detail)) :
    ∃ e answer, verify ring raw now = .error e ∧ e.answer = some answer ∧ answer.code = "state_invalid" :=
  ⟨_, _, h, rfl, rfl⟩

theorem comparable_sign (s : OAuthState) : comparable (sign ring s) = true := by
  have hpart : halves (sign ring s) = (b64 (dumps s.fields), signature ring (b64 (dumps s.fields))) := partition_sign ring s
  unfold comparable
  rw [hpart]
  simp only [ascii_b64, signature, Bool.and_self, Bool.or_true]

/-- **A text that is not comparable raises**, and not `StateInvalid`. -/
theorem verify_not_comparable (h : comparable raw = false) :
    verify ring raw now = .error .unicodeEncodeError ∨ verify ring raw now = .error .typeError := by
  unfold comparable halves at h
  unfold verify
  rw [Bool.or_eq_false_iff, Bool.or_eq_false_iff] at h
  obtain ⟨⟨hbody, hsig⟩, hascii⟩ := h
  simp only [hbody, hsig, Bool.or_self, Bool.false_eq_true, if_false]
  by_cases hb : ascii (Paging.partition '.' raw.toList).1 = true
  · rw [hb, Bool.true_and] at hascii
    simp [hb, hascii]
  · simp [hb]

/-- A comparable text whose signature does not verify is invalid. -/
theorem verify_unsigned (h : comparable raw = true) (hsig : (halves raw).2 ≠ signature ring (halves raw).1) :
    ∃ detail, verify ring raw now = .error (.stateInvalid detail) := by
  unfold comparable at h
  unfold halves at h hsig
  unfold verify
  by_cases hempty : ((Paging.partition '.' raw.toList).1.isEmpty || (Paging.partition '.' raw.toList).2.isEmpty) = true
  · simp only [hempty, if_true]
    exact ⟨_, rfl⟩
  · rw [Bool.not_eq_true] at hempty
    rw [hempty, Bool.false_or, Bool.and_eq_true] at h
    simp only [hempty, h.1, h.2, Bool.false_eq_true, Bool.not_true, if_false, ne_eq, hsig, not_false_eq_true, if_true]
    exact ⟨_, rfl⟩

/-- **The callback answers as claimed exactly where nothing outside ASCII is compared.** -/
theorem asClaimed_iff (hforge : Unforged ring raw) : AsClaimed ring raw now ↔ comparable raw = true := by
  constructor
  · intro h
    by_contra hcomp
    rw [Bool.not_eq_true] at hcomp
    have hother : ∀ s, raw = sign ring s → s.issuedAt + STATE_TTL_SECONDS < wholeSeconds now := by
      rintro s rfl
      rw [comparable_sign] at hcomp
      cases hcomp
    obtain ⟨e, answer, he, hanswer, -⟩ := h.refused hother
    have hraises : verify ring raw now = .error .unicodeEncodeError ∨ verify ring raw now = .error .typeError :=
      verify_not_comparable hcomp
    rcases hraises with hraise | hraise
    · rw [hraise] at he
      obtain rfl := Except.error.inj he
      cases hanswer
    · rw [hraise] at he
      obtain rfl := Except.error.inj he
      cases hanswer
  · intro hcomp
    refine ⟨fun s hs _ hend => ?_, fun hother => ?_⟩
    · rw [hs, verify_sign, if_neg]
      have := wholeSeconds_le hend
      omega
    · by_cases hsig : (halves raw).2 = signature ring (halves raw).1
      · obtain ⟨s, rfl⟩ := hforge hsig
        have hlate := hother s rfl
        have hexpired : verify ring (sign ring s) now = .error (.stateInvalid expiredDetail) := by
          rw [verify_sign, if_pos]
          omega
        exact invalid_answered hexpired
      · have hinvalid : ∃ detail, verify ring raw now = .error (.stateInvalid detail) := verify_unsigned hcomp hsig
        obtain ⟨detail, hdetail⟩ := hinvalid
        exact invalid_answered hdetail

/-- A state of ours, signed. -/
def signedState : String := sign sampleKeyring (newState 1 "gmail" "n" 0 "/connections" true)

/-- A text that is none, and a state of ours. -/
theorem asClaimed_typo :
    (AsClaimed sampleKeyring "forged" 0 ↔ comparable "forged" = true) ∧
      (AsClaimed sampleKeyring signedState 0 ↔ comparable signedState = true) ∧ comparable signedState = true := by
  refine ⟨asClaimed_iff fun h => ?_, asClaimed_iff fun _ => ⟨_, rfl⟩, comparable_sign _⟩
  have hhalves : halves "forged" = ("forged".toList, []) := by decide
  rw [hhalves] at h
  exact absurd h.symm (b64_ne_nil (Sha256.digestBytes_ne_nil _))

/-- One accented letter, and the callback fails instead of refusing. -/
theorem accented_state_raises :
    ¬ ∀ raw now, Unforged sampleKeyring raw → AsClaimed sampleKeyring raw now := by
  intro hclaim
  have hcomp : comparable "x.é" = false := by decide
  have hforge : Unforged sampleKeyring "x.é" := by
    intro hsig
    have hascii : ascii (halves "x.é").2 = true := by
      rw [hsig]
      exact ascii_b64 _
    have hother : ascii (halves "x.é").2 = false := by decide
    rw [hother] at hascii
    cases hascii
  have h := (asClaimed_iff hforge).1 (hclaim "x.é" 0 hforge)
  rw [hcomp] at h
  cases h

end Connections
end SafeSend
