import SafeSend.Lib.Base64
import SafeSend.Lib.Crc
import SafeSend.Lib.Numerals
import SafeSend.Sha256
/-!
# API keys

`sk_live_{key_id}_{secret}{crc32}`: what is minted, and what `parse` lets through before any database is asked.  The
pattern is of fixed width, so it is read piece by piece; its `$` stands at the end or before a newline that ends the text.
-/
namespace SafeSend
namespace ApiKeys

open Lib

def PREFIX : List Char := "sk_live_".toList

def KEY_ID_BYTES : Nat := 9
def SECRET_BYTES : Nat := 32
def CHECKSUM_CHARS : Nat := 8

structure MintedKey where
  plaintext : String
  keyId : String
  keyHash : String
  prefixDisplay : String
  deriving DecidableEq, Repr

/-- `raw.encode("ascii")`, of characters that are ASCII. -/
def encodeAscii (l : List Char) : List UInt8 := l.map fun c => UInt8.ofNat c.toNat

/-- `binascii.crc32`. -/
def crc32 (raw : List UInt8) : Nat := Crc.crc 32 0xEDB88320 raw

/-- `f"{crc32:08x}"`. -/
def checksum (body : List Char) : List Char := numeral 16 CHECKSUM_CHARS (crc32 (encodeAscii body))

/-- `_b64`: the padding stripped. -/
def b64 (raw : List UInt8) : List Char := Base64.body raw

/-- `f"{PREFIX}{key_id}_{secret}"`. -/
def bodyOf (keyId secret : List Char) : List Char := PREFIX ++ keyId ++ '_' :: secret

def hashSecret (plaintext : String) : String := Sha256.hexdigest (Text.encode plaintext)

def verify (plaintext storedHash : String) : Bool := hashSecret plaintext == storedHash

/-- `mint`, of what `os.urandom` gives. -/
def mint (idBytes secretBytes : List UInt8) : MintedKey :=
  let keyId := b64 idBytes
  let body := bodyOf keyId (b64 secretBytes)
  let plaintext := body ++ checksum body
  { plaintext := String.ofList plaintext
    keyId := String.ofList keyId
    keyHash := hashSecret (String.ofList plaintext)
    prefixDisplay := String.ofList (PREFIX ++ keyId ++ '…' :: plaintext.drop (plaintext.length - 4)) }

/-- `[A-Za-z0-9_-]`. -/
def isKeyChar (c : Char) : Bool := c.isAlphanum || c == '_' || c == '-'

/-- `[0-9a-f]`. -/
def isLowerHex (c : Char) : Bool := c.isDigit || ('a' ≤ c && c ≤ 'f')

/-- A literal of the pattern, and what is left. -/
def readLiteral (w l : List Char) : Option (List Char) := if w.isPrefixOf l then some (l.drop w.length) else none

/-- A class of the pattern, `n` times, and what is left. -/
def readClass (p : Char → Bool) (n : Nat) (l : List Char) : Option (List Char × List Char) :=
  if (l.take n).length = n ∧ (l.take n).all p then some (l.take n, l.drop n) else none

/-- `_KEY_RE.match`, its groups. -/
def matchKey (l : List Char) : Option (List Char × List Char × List Char) := do
  let l ← readLiteral PREFIX l
  let (keyId, l) ← readClass isKeyChar 12 l
  let l ← readLiteral ['_'] l
  let (secret, l) ← readClass isKeyChar 43 l
  let (sum, l) ← readClass isLowerHex CHECKSUM_CHARS l
  if l = [] ∨ l = ['\n'] then some (keyId, secret, sum) else none

/-- The `key_id` if the structure and checksum hold. -/
def parse (candidate : String) : Option String :=
  match matchKey candidate.toList with
  | none => none
  | some (keyId, secret, sum) => if sum = checksum (bodyOf keyId secret) then some (String.ofList keyId) else none

/-! ## What the pattern matches -/

theorem readLiteral_eq_some {w l rest : List Char} : readLiteral w l = some rest ↔ l = w ++ rest := by
  unfold readLiteral
  constructor
  · intro h
    by_cases hw : w.isPrefixOf l
    · obtain ⟨m, rfl⟩ := List.isPrefixOf_iff_prefix.1 hw
      rw [if_pos hw, List.drop_left] at h
      rw [Option.some.inj h]
    · rw [if_neg hw] at h
      cases h
  · rintro rfl
    rw [if_pos (List.isPrefixOf_iff_prefix.2 (List.prefix_append _ _)), List.drop_left]

theorem readClass_eq_some {p : Char → Bool} {n : Nat} {l run rest : List Char} :
    readClass p n l = some (run, rest) ↔ l = run ++ rest ∧ run.length = n ∧ ∀ c ∈ run, p c := by
  unfold readClass
  constructor
  · intro h
    by_cases hrun : (l.take n).length = n ∧ (l.take n).all p
    · rw [if_pos hrun] at h
      obtain ⟨rfl, rfl⟩ := Prod.mk.inj (Option.some.inj h)
      exact ⟨(List.take_append_drop n l).symm, hrun.1, List.all_eq_true.1 hrun.2⟩
    · rw [if_neg hrun] at h
      cases h
  · rintro ⟨rfl, rfl, hall⟩
    rw [List.take_left, List.drop_left, if_pos ⟨rfl, List.all_eq_true.2 hall⟩]

/-- The groups of the pattern. -/
structure Groups (keyId secret sum : List Char) : Prop where
  idLength : keyId.length = 12
  idChars : ∀ c ∈ keyId, isKeyChar c
  secretLength : secret.length = 43
  secretChars : ∀ c ∈ secret, isKeyChar c
  sumLength : sum.length = CHECKSUM_CHARS
  sumChars : ∀ c ∈ sum, isLowerHex c

theorem matchKey_eq_some {l keyId secret sum : List Char} : matchKey l = some (keyId, secret, sum) ↔
    Groups keyId secret sum ∧ (l = bodyOf keyId secret ++ sum ∨ l = bodyOf keyId secret ++ sum ++ ['\n']) := by
  unfold matchKey
  constructor
  · intro h
    obtain ⟨l₁, h₁, hid⟩ := Option.bind_eq_some_iff.1 h
    obtain ⟨⟨id, l₂⟩, h₂, hsep⟩ := Option.bind_eq_some_iff.1 hid
    obtain ⟨l₃, h₃, hsecret⟩ := Option.bind_eq_some_iff.1 hsep
    obtain ⟨⟨s, l₄⟩, h₄, hsum⟩ := Option.bind_eq_some_iff.1 hsecret
    obtain ⟨⟨c, l₅⟩, h₅, hlast⟩ := Option.bind_eq_some_iff.1 hsum
    dsimp only at h₃ h₅ hlast
    by_cases hend : l₅ = [] ∨ l₅ = ['\n']
    · rw [if_pos hend] at hlast
      obtain ⟨rfl, heq⟩ := Prod.mk.inj (Option.some.inj hlast)
      obtain ⟨rfl, rfl⟩ := Prod.mk.inj heq
      obtain ⟨hl₁, hidLength, hidChars⟩ := readClass_eq_some.1 h₂
      obtain ⟨hl₃, hsecretLength, hsecretChars⟩ := readClass_eq_some.1 h₄
      obtain ⟨hl₄, hsumLength, hsumChars⟩ := readClass_eq_some.1 h₅
      have hl : l = bodyOf id s ++ c ++ l₅ := by
        rw [readLiteral_eq_some.1 h₁, hl₁, readLiteral_eq_some.1 h₃, hl₃, hl₄]
        simp only [bodyOf, List.append_assoc, List.cons_append, List.nil_append]
      refine ⟨⟨hidLength, hidChars, hsecretLength, hsecretChars, hsumLength, hsumChars⟩, ?_⟩
      rcases hend with rfl | rfl
      · rw [List.append_nil] at hl
        exact .inl hl
      · exact .inr hl
    · rw [if_neg hend] at hlast
      cases hlast
  · rintro ⟨hg, hl⟩
    obtain ⟨rest, hl, hend⟩ : ∃ rest, l = bodyOf keyId secret ++ sum ++ rest ∧ (rest = [] ∨ rest = ['\n']) := by
      rcases hl with rfl | rfl
      · exact ⟨[], (List.append_nil _).symm, .inl rfl⟩
      · exact ⟨['\n'], rfl, .inr rfl⟩
    have h₁ : readLiteral PREFIX l = some (keyId ++ (['_'] ++ (secret ++ (sum ++ rest)))) := by
      rw [readLiteral_eq_some, hl]
      simp only [bodyOf, List.append_assoc, List.cons_append, List.nil_append]
    have h₂ : readClass isKeyChar 12 (keyId ++ (['_'] ++ (secret ++ (sum ++ rest)))) =
        some (keyId, ['_'] ++ (secret ++ (sum ++ rest))) := readClass_eq_some.2 ⟨rfl, hg.idLength, hg.idChars⟩
    have h₃ : readLiteral ['_'] (['_'] ++ (secret ++ (sum ++ rest))) = some (secret ++ (sum ++ rest)) :=
      readLiteral_eq_some.2 rfl
    have h₄ : readClass isKeyChar 43 (secret ++ (sum ++ rest)) = some (secret, sum ++ rest) :=
      readClass_eq_some.2 ⟨rfl, hg.secretLength, hg.secretChars⟩
    have h₅ : readClass isLowerHex CHECKSUM_CHARS (sum ++ rest) = some (sum, rest) :=
      readClass_eq_some.2 ⟨rfl, hg.sumLength, hg.sumChars⟩
    simp only [bind, Option.bind, h₁, h₂, h₃, h₄, h₅]
    rw [if_pos hend]

/-- `sk_live_`, 12 characters of base64url, `_`, 43 more, and the checksum of all that. -/
def IsKey (s keyId : String) : Prop :=
  ∃ secret, Groups keyId.toList secret (checksum (bodyOf keyId.toList secret)) ∧
    s.toList = bodyOf keyId.toList secret ++ checksum (bodyOf keyId.toList secret)

theorem parse_eq_some {s keyId : String} : parse s = some keyId ↔ ∃ secret,
    Groups keyId.toList secret (checksum (bodyOf keyId.toList secret)) ∧
      (s.toList = bodyOf keyId.toList secret ++ checksum (bodyOf keyId.toList secret) ∨
        s.toList = bodyOf keyId.toList secret ++ checksum (bodyOf keyId.toList secret) ++ ['\n']) := by
  unfold parse
  constructor
  · intro h
    cases hm : matchKey s.toList with
    | none =>
      rw [hm] at h
      cases h
    | some groups =>
      obtain ⟨id, secret, sum⟩ := groups
      rw [hm] at h
      dsimp only at h
      by_cases hsum : sum = checksum (bodyOf id secret)
      · rw [if_pos hsum] at h
        have hid : keyId.toList = id := by rw [← Option.some.inj h, String.toList_ofList]
        rw [hid]
        refine ⟨secret, ?_⟩
        rw [← hsum]
        exact matchKey_eq_some.1 hm
      · rw [if_neg hsum] at h
        cases h
  · rintro ⟨secret, hmatch⟩
    rw [matchKey_eq_some.2 hmatch]
    dsimp only
    rw [if_pos rfl, String.ofList_toList]

/-- **`parse` accepts a key, and a key with a newline after it.** -/
theorem parse_iff {s keyId : String} :
    parse s = some keyId ↔ IsKey s keyId ∨ ∃ key, s = key ++ "\n" ∧ IsKey key keyId := by
  rw [parse_eq_some]
  constructor
  · rintro ⟨secret, hg, hs | hs⟩
    · exact .inl ⟨secret, hg, hs⟩
    · refine .inr ⟨String.ofList (bodyOf keyId.toList secret ++ checksum (bodyOf keyId.toList secret)), ?_,
        ⟨secret, hg, String.toList_ofList⟩⟩
      rw [← String.toList_inj, String.toList_append, String.toList_ofList, hs]
      rfl
  · rintro (⟨secret, hg, hs⟩ | ⟨key, rfl, secret, hg, hs⟩)
    · exact ⟨secret, hg, .inl hs⟩
    · refine ⟨secret, hg, .inr ?_⟩
      rw [String.toList_append, hs]
      rfl

theorem length_bodyOf (keyId secret : List Char) : (bodyOf keyId secret).length = 9 + keyId.length + secret.length := by
  unfold bodyOf
  have hprefix : PREFIX.length = 8 := by decide
  rw [List.length_append, List.length_append, List.length_cons, hprefix]
  omega

theorem IsKey.length {s keyId : String} (h : IsKey s keyId) : s.toList.length = 72 := by
  obtain ⟨secret, hg, hs⟩ := h
  rw [hs, List.length_append, length_bodyOf, hg.idLength, hg.secretLength, hg.sumLength]
  rfl

/-- **`parse` accepts exactly the minted form but for a key with a newline after it.** -/
theorem parse_exact_iff (s : String) : (∀ keyId, parse s = some keyId ↔ IsKey s keyId) ↔
    ∀ key keyId, s = key ++ "\n" → ¬ IsKey key keyId := by
  constructor
  · rintro h key keyId rfl hkey
    have hlong := ((h keyId).1 (parse_iff.2 (.inr ⟨key, rfl, hkey⟩))).length
    rw [String.toList_append, List.length_append, hkey.length] at hlong
    exact absurd hlong (by decide)
  · intro h keyId
    rw [parse_iff]
    constructor
    · rintro (hkey | ⟨key, hs, hkey⟩)
      · exact hkey
      · exact absurd hkey (h key keyId hs)
    · exact .inl

/-- A key, and a newline. -/
def keyLine : String := "sk_live_AAAAAAAAAAAA_AAAAAAAAAAAAAAAAAAAAAAAAAAAAAAAAAAAAAAAAAAA0f39511b\n"

theorem newline_accepted : parse keyLine = some "AAAAAAAAAAAA" ∧ ¬ IsKey keyLine "AAAAAAAAAAAA" := by
  refine ⟨by decide +kernel, fun h => ?_⟩
  have hlong : keyLine.toList.length = 73 := by decide +kernel
  rw [h.length] at hlong
  exact absurd hlong (by decide)

/-! ## Minted keys -/

theorem isKeyChar_of_mem_b64 {raw : List UInt8} {c : Char} (h : c ∈ b64 raw) : isKeyChar c := by
  obtain ⟨v, hv, rfl⟩ := Base64.mem_body h
  have hall : ∀ v : Fin 64, isKeyChar (Base64.encodeChar v) := by decide +kernel
  exact hall ⟨v, hv⟩

theorem isLowerHex_of_mem_checksum {body : List Char} {c : Char} (h : c ∈ checksum body) : isLowerHex c := by
  obtain ⟨d, hd, rfl⟩ := mem_numeral (by decide) (by decide) h
  have hall : ∀ d : Fin 16, isLowerHex (digitChar d) := by decide +kernel
  exact hall ⟨d, hd⟩

/-- **What is minted is a key.** -/
theorem mint_groups {idBytes secretBytes : List UInt8} (hid : idBytes.length = KEY_ID_BYTES)
    (hsecret : secretBytes.length = SECRET_BYTES) :
    Groups (b64 idBytes) (b64 secretBytes) (checksum (bodyOf (b64 idBytes) (b64 secretBytes))) where
  idLength := (Base64.length_body idBytes).trans (by rw [hid]; rfl)
  idChars _ := isKeyChar_of_mem_b64
  secretLength := (Base64.length_body secretBytes).trans (by rw [hsecret]; rfl)
  secretChars _ := isKeyChar_of_mem_b64
  sumLength := length_numeral _ _ _
  sumChars _ := isLowerHex_of_mem_checksum

theorem parse_mint {idBytes secretBytes : List UInt8} (hid : idBytes.length = KEY_ID_BYTES)
    (hsecret : secretBytes.length = SECRET_BYTES) :
    parse (mint idBytes secretBytes).plaintext = some (mint idBytes secretBytes).keyId := by
  have hgroups := mint_groups hid hsecret
  rw [parse_eq_some]
  refine ⟨b64 secretBytes, ?_, .inl ?_⟩
  · rw [mint, String.toList_ofList]
    exact hgroups
  · rw [mint, String.toList_ofList, String.toList_ofList]

/-! ## Mistyped keys -/

/-- A key with other characters in a block of at most four before the checksum, or in the checksum. -/
inductive Mistyped (body sum : List Char) : String → Prop
  | block (before block after other : List Char) (hbody : body = before ++ block ++ after) (hshort : block.length ≤ 4)
    (hlength : other.length = block.length) (hne : other ≠ block) :
    Mistyped body sum (String.ofList (before ++ other ++ after ++ sum))
  | checksum (other : List Char) (hlength : other.length = sum.length) (hne : other ≠ sum) :
    Mistyped body sum (String.ofList (body ++ other))

theorem crc32_full : Crc.Full 32 0xEDB88320 := ⟨by decide, by decide, by decide⟩

def IsAscii (l : List Char) : Prop := ∀ c ∈ l, c.toNat < 128

theorem encodeAscii_inj : ∀ {l m : List Char}, IsAscii l → IsAscii m → encodeAscii l = encodeAscii m → l = m
  | [], [], _, _, _ => rfl
  | c :: l, d :: m, hl, hm, heq => by
    obtain ⟨hbyte, hrest⟩ := List.cons.inj heq
    have hc := hl c List.mem_cons_self
    have hd := hm d List.mem_cons_self
    have hvalue := congrArg UInt8.toNat hbyte
    rw [UInt8.toNat_ofNat', UInt8.toNat_ofNat'] at hvalue
    have hcd : c = d := by
      apply Char.toNat_inj.1
      omega
    have hlm := encodeAscii_inj (fun x hx => hl x (List.mem_cons_of_mem _ hx))
      (fun x hx => hm x (List.mem_cons_of_mem _ hx)) hrest
    rw [hcd, hlm]

theorem isKeyChar_ascii {c : Char} (h : isKeyChar c) : c.toNat < 128 := by
  unfold isKeyChar Char.isAlphanum Char.isAlpha Char.isUpper Char.isLower Char.isDigit at h
  simp only [Bool.or_eq_true, Bool.and_eq_true, decide_eq_true_eq, beq_iff_eq, ge_iff_le, UInt32.le_iff_toNat_le] at h
  rcases h with (((⟨-, h⟩ | ⟨-, h⟩) | ⟨-, h⟩) | rfl) | rfl
  · exact lt_of_le_of_lt h (by decide)
  · exact lt_of_le_of_lt h (by decide)
  · exact lt_of_le_of_lt h (by decide)
  · decide
  · decide

theorem bodyOf_ascii {keyId secret sum : List Char} (h : Groups keyId secret sum) : IsAscii (bodyOf keyId secret) := by
  intro c hc
  unfold bodyOf at hc
  have hprefix : ∀ c ∈ PREFIX, c.toNat < 128 := by decide
  rcases List.mem_append.1 hc with hc | hc
  · rcases List.mem_append.1 hc with hc | hc
    · exact hprefix c hc
    · exact isKeyChar_ascii (h.idChars c hc)
  · rcases List.mem_cons.1 hc with rfl | hc
    · decide
    · exact isKeyChar_ascii (h.secretChars c hc)

theorem checksum_inj {body other : List Char} (h : checksum other = checksum body) :
    crc32 (encodeAscii other) = crc32 (encodeAscii body) := by
  have fits (l : List Char) : crc32 (encodeAscii l) < 16 ^ CHECKSUM_CHARS := crc32_full.crc_lt (by decide) _
  have read (l : List Char) : readNumeral 16 CHECKSUM_CHARS 0 (checksum l ++ []) = some (crc32 (encodeAscii l), []) :=
    readNumeral_numeral (by decide) (by decide) (fits l) []
  have hread := read other
  rw [h, read body] at hread
  exact (Prod.mk.inj (Option.some.inj hread)).1.symm

/-- **A burst of four characters changes the checksum.** -/
theorem checksum_burst {before block after other : List Char} (hshort : block.length ≤ 4)
    (hlength : other.length = block.length) (hbody : IsAscii (before ++ block ++ after))
    (hother : IsAscii (before ++ other ++ after))
    (heq : checksum (before ++ other ++ after) = checksum (before ++ block ++ after)) : other = block := by
  have hcrc := checksum_inj heq
  unfold crc32 encodeAscii at hcrc
  rw [List.map_append, List.map_append, List.map_append, List.map_append] at hcrc
  have hbytes := crc32_full.crc_burst (by decide) (by rw [List.length_map, List.length_map, hlength])
    (by rw [List.length_map]; omega) hcrc
  refine encodeAscii_inj (fun c hc => hother c ?_) (fun c hc => hbody c ?_) hbytes
  · exact List.mem_append_left _ (List.mem_append_right _ hc)
  · exact List.mem_append_left _ (List.mem_append_right _ hc)

/-- What is accepted at a key's length has its checksum. -/
theorem parse_of_length {body sum : List Char} {keyId : String} (hbody : body.length = 64)
    (hsum : sum.length = CHECKSUM_CHARS) (h : parse (String.ofList (body ++ sum)) = some keyId) :
    IsAscii body ∧ sum = checksum body := by
  obtain ⟨secret, hg, hs⟩ := parse_eq_some.1 h
  rw [String.toList_ofList] at hs
  have hlength := length_bodyOf keyId.toList secret
  rw [hg.idLength, hg.secretLength] at hlength
  rcases hs with hs | hs
  · obtain ⟨hb, hc⟩ := List.append_inj hs (hbody.trans hlength.symm)
    rw [hb]
    exact ⟨bodyOf_ascii hg, hc⟩
  · have hlong := congrArg List.length hs
    rw [List.length_append, List.length_append, List.length_append, hbody, hsum, hlength, hg.sumLength] at hlong
    exact absurd hlong (by decide)

/-- **A mistyped key does not pass the checksum gate**, and the key itself does. -/
theorem mistyped_refused {idBytes secretBytes : List UInt8} (hid : idBytes.length = KEY_ID_BYTES)
    (hsecret : secretBytes.length = SECRET_BYTES) :
    parse (mint idBytes secretBytes).plaintext = some (mint idBytes secretBytes).keyId ∧
      ∀ s, Mistyped (bodyOf (b64 idBytes) (b64 secretBytes)) (checksum (bodyOf (b64 idBytes) (b64 secretBytes))) s →
        parse s = none := by
  have hgroups := mint_groups hid hsecret
  have hlength := length_bodyOf (b64 idBytes) (b64 secretBytes)
  rw [hgroups.idLength, hgroups.secretLength] at hlength
  refine ⟨parse_mint hid hsecret, fun s hs => ?_⟩
  by_contra hne
  obtain ⟨keyId, hparse⟩ := Option.ne_none_iff_exists'.1 hne
  cases hs with
  | block before block after other hbody hshort hsame hother =>
    have hlong : (before ++ other ++ after).length = 64 := by
      rw [hbody] at hlength
      simp only [List.length_append, hsame] at hlength ⊢
      exact hlength
    obtain ⟨hascii, hsum⟩ := parse_of_length hlong hgroups.sumLength hparse
    have hkey := bodyOf_ascii hgroups
    rw [hbody] at hkey hsum
    exact hother (checksum_burst hshort hsame hkey hascii hsum.symm)
  | checksum other hsame hother =>
    exact hother (parse_of_length hlength (hsame.trans hgroups.sumLength) hparse).2

def zeroId : List UInt8 := List.replicate KEY_ID_BYTES 0
def zeroSecret : List UInt8 := List.replicate SECRET_BYTES 0

theorem mistyped_refused_zero : parse (mint zeroId zeroSecret).plaintext = some (mint zeroId zeroSecret).keyId ∧
    parse (String.ofList (bodyOf (b64 zeroId) (b64 zeroSecret) ++ "00000000".toList)) = none := by
  obtain ⟨hkey, hmistyped⟩ := @mistyped_refused zeroId zeroSecret (by decide) (by decide)
  exact ⟨hkey, hmistyped _ (.checksum "00000000".toList (by decide) (by decide +kernel))⟩

end ApiKeys
end SafeSend
