import SafeSend.Lib.Framing
import SafeSend.Send.Rows
/-!
# The confirmation digest

`confirmation_digest` of any channel, as the bytes it hashes and their SHA-256.  The fields are any texts, digits and
colons among them; their lengths are those of their bytes.
-/
namespace SafeSend
namespace Send

open Lib
open Text (Bytes)

/-- `channel: ProviderKind | str`. -/
inductive Channel
  | kind (provider : ProviderKind)
  | text (channel : String)
  deriving DecidableEq, Repr

/-- `channel_value`. -/
def Channel.value : Channel → String
  | kind provider => provider.value
  | text channel => channel

/-- The arguments of `confirmation_digest`. -/
structure Content where
  channel : Channel
  recipient : String
  recipientDisplay : String
  subject : Option String
  body : String
  deriving DecidableEq, Repr

def Content.parts (c : Content) : List String :=
  [c.channel.value, c.recipient, c.recipientDisplay, c.subject.getD "", c.body]

/-- `f"{len(raw)}:".encode("ascii")`. -/
def lengthPrefix (n : Nat) : Bytes := Text.encode (toString n ++ ":")

def Content.payload (c : Content) : Bytes :=
  c.parts.flatMap fun part =>
    let raw := Text.encode part
    lengthPrefix raw.length ++ raw

def Content.digest (c : Content) : String := Sha256.hexdigest c.payload

/-- The same content: no subject is an empty one. -/
structure Content.Same (a b : Content) : Prop where
  channel : a.channel.value = b.channel.value
  recipient : a.recipient = b.recipient
  recipientDisplay : a.recipientDisplay = b.recipientDisplay
  subject : a.subject.getD "" = b.subject.getD ""
  body : a.body = b.body

/-- Two messages that SHA-256 does not tell apart. -/
def Sha256Collision (p q : Bytes) : Prop := p ≠ q ∧ Sha256.hexdigest p = Sha256.hexdigest q

/-! ## The prefixes -/

theorem encode_append (s t : String) : Text.encode (s ++ t) = Text.encode s ++ Text.encode t := by
  unfold Text.encode
  rw [String.toList_append, List.flatMap_append]

theorem encode_inj {s t : String} (h : Text.encode s = Text.encode t) : s = t := by
  have hs := Text.decode_encode s
  rw [h, Text.decode_encode t] at hs
  exact (Option.some.inj hs).symm

/-- The decimal digits of a length are bytes 48 to 57. -/
theorem colon_not_mem (n : Nat) : (58 : UInt8) ∉ Text.encode (toString n) := by
  intro h
  obtain ⟨c, hc, hbyte⟩ := List.mem_flatMap.1 h
  have hdigits : c ∈ Nat.toDigits 10 n := by simpa [Nat.repr] using hc
  have hdigit := Nat.isDigit_of_mem_toDigits (by omega) (by omega) hdigits
  have hrange : 48 ≤ c.toNat ∧ c.toNat ≤ 57 := by
    rw [Char.isDigit, Bool.and_eq_true, decide_eq_true_eq, decide_eq_true_eq] at hdigit
    exact ⟨UInt32.le_iff_toNat_le.1 hdigit.1, UInt32.le_iff_toNat_le.1 hdigit.2⟩
  have hone : Text.encodeChar c = [UInt8.ofNat c.toNat] := by
    unfold Text.encodeChar
    exact if_pos (by omega)
  rw [hone, List.mem_singleton] at hbyte
  have hvalue := congrArg UInt8.toNat hbyte
  rw [UInt8.toNat_ofNat'] at hvalue
  have : (58 : UInt8).toNat = 58 := rfl
  omega

theorem lengthPrefix_delimited : Delimited lengthPrefix := by
  have heq : lengthPrefix = fun n => Text.encode (toString n) ++ [58] := by
    funext n
    exact encode_append _ _
  rw [heq]
  exact Delimited.of_mark colon_not_mem fun m n h => toString_inj (encode_inj h)

theorem payload_eq (c : Content) : c.payload = frames lengthPrefix (c.parts.map Text.encode) := by
  unfold Content.payload frames
  rw [List.flatMap_map]
  rfl

theorem parts_eq_iff {a b : Content} : a.parts = b.parts ↔ a.Same b := by
  constructor
  · intro h
    obtain ⟨hchannel, h⟩ := List.cons.inj h
    obtain ⟨hrecipient, h⟩ := List.cons.inj h
    obtain ⟨hdisplay, h⟩ := List.cons.inj h
    obtain ⟨hsubject, h⟩ := List.cons.inj h
    exact ⟨hchannel, hrecipient, hdisplay, hsubject, (List.cons.inj h).1⟩
  · rintro ⟨hchannel, hrecipient, hdisplay, hsubject, hbody⟩
    unfold Content.parts
    rw [hchannel, hrecipient, hdisplay, hsubject, hbody]

/-- **What is hashed tells the parts.** -/
theorem payload_inj {a b : Content} (h : a.payload = b.payload) : a.parts = b.parts := by
  rw [payload_eq, payload_eq] at h
  exact List.map_injective_iff.2 (fun _ _ => encode_inj) (lengthPrefix_delimited.frames_inj h)

/-- **The payload is unambiguous**, and so is the digest but for a collision of the two payloads. -/
theorem confirmation_unambiguous (a b : Content) : (a.payload = b.payload ↔ a.Same b) ∧
    (a.digest = b.digest ↔ a.Same b ∨ Sha256Collision a.payload b.payload) := by
  have hpayload : a.payload = b.payload ↔ a.Same b := by
    constructor
    · intro h
      exact parts_eq_iff.1 (payload_inj h)
    · intro h
      rw [payload_eq, payload_eq, parts_eq_iff.2 h]
  refine ⟨hpayload, ?_⟩
  constructor
  · intro h
    by_cases hsame : a.payload = b.payload
    · exact .inl (hpayload.1 hsame)
    · exact .inr ⟨hsame, h⟩
  · rintro (hsame | ⟨-, hdigest⟩)
    · exact congrArg Sha256.hexdigest (hpayload.2 hsame)
    · exact hdigest

/-- Digits and colons of a body cannot stand in for a prefix. -/
example : (Content.payload ⟨.text "slack", "C1", "#a", none, "1:x"⟩) ≠
    Content.payload ⟨.text "slack", "C1", "#a", some "1:x", ""⟩ := by decide

end Send
end SafeSend
