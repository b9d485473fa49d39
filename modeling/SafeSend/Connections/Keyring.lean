import SafeSend.Connections.Crypto
import SafeSend.Lib.Base64
import SafeSend.Lib.Framing
import SafeSend.Numbers
/-!
# The keyring a text spells

`parse_keyring`: `v1:<b64>,v2:<b64>`, or a bare base64 key.  A version is whatever `int` reads; the envelope has two
bytes for it.
-/
namespace SafeSend
namespace Crypto

open Lib
open Text (Bytes)

/-- `KeyringUnavailable`, with what its text tells of. -/
inductive KeyringUnavailable
  | empty
  | nonNumeric (entry : String)
  | notBase64 (version : Int)
  | wrongLength (version : Int) (length : Nat)
  deriving DecidableEq, Repr

/-- One more item of `keys`: a version given again is given its last key. -/
def Keyring.put (ring : Keyring) (version : Int) (key : Key) : Keyring where
  keys := (version, key) :: ring.keys.filter fun p => p.1 ≠ version
  current := max ring.current version
  held := by
    by_cases h : max ring.current version = version
    · rw [h, List.lookup_cons_self]
      rfl
    · have hr : max ring.current version = ring.current := (max_choice _ _).resolve_right h
      have hcurrent : ring.current ≠ version := fun he => h (hr.trans he)
      rw [hr, List.lookup_cons, beq_eq_false_iff_ne.2 hcurrent,
        lookup_filter (p := fun v => decide (v ≠ version)) (decide_eq_true hcurrent)]
      exact ring.held
  highest p hp := by
    rcases List.mem_cons.1 hp with rfl | hp
    · exact le_max_right _ _
    · exact le_trans (ring.highest p (List.mem_filter.1 hp).1) (le_max_left _ _)

/-- `[chunk.strip() for chunk in raw.split(",") if chunk.strip()]`. -/
def entries (raw : String) : List String :=
  ((raw.toList.splitOn ',').map fun chunk => Text.strip (String.ofList chunk)).filter fun entry => !entry.isEmpty

/-- `version, _, material = entry.partition(":")`; a bare key is version 1. -/
def partitioned (entry : String) : String × String :=
  let version := entry.toList.takeWhile (· ≠ ':')
  let material := (entry.toList.dropWhile (· ≠ ':')).tail
  if material.isEmpty then ("1", entry) else (String.ofList version, String.ofList material)

/-- `int(version.lstrip("vV"))`. -/
def entryVersion (entry : String) : Option Int :=
  Numbers.readInt (String.ofList ((partitioned entry).1.toList.dropWhile fun c => c == 'v' || c == 'V'))

def parseEntry (entry : String) : Except KeyringUnavailable (Int × Key) :=
  match entryVersion entry with
  | none => .error (.nonNumeric entry)
  | some version =>
    match Base64.decodeStrict (partitioned entry).2.toList with
    | none => .error (.notBase64 version)
    | some key =>
      if h : key.length = KEY_BYTES then .ok (version, ⟨key, h⟩) else .error (.wrongLength version key.length)

/-- `keys[parsed_version] = key`. -/
def putEntry (ring : Keyring) (entry : String) : Except KeyringUnavailable Keyring :=
  (parseEntry entry).map fun found => ring.put found.1 found.2

def parseKeyring (raw : String) : Except KeyringUnavailable Keyring :=
  match entries raw with
  | [] => .error .empty
  | entry :: rest =>
    match parseEntry entry with
    | .error e => .error e
    | .ok found => rest.foldlM putEntry (Keyring.single found.1 found.2)

/-! ## The envelope of an accepted keyring -/

/-- What is sealed for one row does not open for another. -/
def AESGCM.Authentic (aes : AESGCM) : Prop :=
  ∀ k n p a other, other ≠ a → aes.decrypt k n (aes.encrypt k n p a) other = none

/-- A length in ones, closed by a zero. -/
def unary (n : Nat) : Bytes := List.replicate n 1 ++ [0]

theorem unary_delimited : Delimited unary := by
  refine Delimited.of_mark (fun n h => ?_) fun m n h => ?_
  · exact absurd (List.eq_of_mem_replicate h) (by decide)
  · have := congrArg List.length h
    rwa [List.length_replicate, List.length_replicate] at this

/-- A cipher that hides nothing and authenticates everything: key, nonce and associated data as one part, and the
text. -/
def AESGCM.closed : AESGCM where
  encrypt k n p a := frame unary (k.1 ++ n ++ a) ++ p
  decrypt k n d a :=
    if (frame unary (k.1 ++ n ++ a)).isPrefixOf d then some (d.drop (frame unary (k.1 ++ n ++ a)).length) else none
  decrypt_encrypt k n p a := by
    rw [if_pos (List.isPrefixOf_iff_prefix.2 (List.prefix_append _ _)), List.drop_left]

theorem AESGCM.closed_authentic : AESGCM.closed.Authentic := by
  intro k n p a other hne
  refine if_neg fun hprefix => hne ?_
  obtain ⟨rest, hrest⟩ := List.isPrefixOf_iff_prefix.1 hprefix
  exact List.append_cancel_left (unary_delimited.frame_cut hrest).1

variable {aes : AESGCM} {nonce : Nonce} {plaintext : String} {aad : Bytes} {ring : Keyring}

/-- What an envelope of this text is: it names the current version, opens for its row, and for no other row and under no
keyring that lacks the version. -/
structure Sealed (aes : AESGCM) (plaintext : String) (aad : Bytes) (ring : Keyring) (blob : Bytes) : Prop where
  version : ∃ v, keyVersionOf blob = .ok v ∧ (v : Int) = ring.current
  opens : decrypt aes blob aad ring = .ok plaintext
  bound : ∀ other, other ≠ aad → ∃ d, decrypt aes blob other ring = .error (.envelope d)
  retired : ∀ ring' : Keyring, ring'.keys.lookup ring.current = none → ∀ other, ∃ d,
    decrypt aes blob other ring' = .error (.keyNotFound d)

/-- `encrypt` succeeds, and what it makes is such an envelope. -/
def Seals (aes : AESGCM) (nonce : Nonce) (plaintext : String) (aad : Bytes) (ring : Keyring) : Prop :=
  ∃ blob, encrypt aes nonce plaintext aad ring = .ok blob ∧ Sealed aes plaintext aad ring blob

/-- **A keyring whose current version fits two bytes seals.** -/
theorem exists_encrypt (h0 : 0 ≤ ring.current) (hlt : ring.current < 65536) :
    ∃ blob, encrypt aes nonce plaintext aad ring = .ok blob := by
  obtain ⟨k, hk⟩ := ring.lookup_current
  have hkey := Keyring.keyFor_eq_ok.2 hk
  have hbytes : toBytes ring.current =
      .ok [.ofNat (ring.current.toNat / 256), .ofNat (ring.current.toNat % 256)] := by
    unfold toBytes
    rw [if_neg (by omega), if_neg (by omega)]
  unfold encrypt
  rw [hkey, hbytes]
  exact ⟨_, rfl⟩

theorem keyFor_none {v : Int} (h : ring.keys.lookup v = none) : ∃ d, ring.keyFor v = .error (.keyNotFound d) := by
  unfold Keyring.keyFor
  rw [h]
  exact ⟨_, rfl⟩

/-- **What an authentic cipher sealed is an envelope of its row and version alone.** -/
theorem sealed_of_encrypt (haes : aes.Authentic) {blob : Bytes} (h : encrypt aes nonce plaintext aad ring = .ok blob) :
    Sealed aes plaintext aad ring blob := by
  obtain ⟨v, hv, hvr⟩ := keyVersionOf_encrypt h
  obtain ⟨k, hk, -, -, hblob⟩ := encrypt_eq_ok h
  have hring : ring.keyFor (v : Int) = .ok k := Keyring.keyFor_eq_ok.2 (by rw [hvr, hk])
  refine ⟨⟨v, hv, hvr⟩, decrypt_encrypt h rfl, fun other hne => ?_, fun ring' hnone other => ?_⟩
  · have hrefused := haes k nonce.1 (Text.encode plaintext) aad other hne
    unfold decrypt
    rw [hv]
    rw [hblob]
    simp only [bind, Except.bind, hring, nonce_sealed, ct_sealed, hrefused]
    exact ⟨_, rfl⟩
  · obtain ⟨d, hd⟩ := keyFor_none (v := (v : Int)) (hvr ▸ hnone)
    unfold decrypt
    rw [hv]
    simp only [bind, Except.bind, hd]
    exact ⟨d, rfl⟩

theorem seals_iff (haes : aes.Authentic) :
    Seals aes nonce plaintext aad ring ↔ 0 ≤ ring.current ∧ ring.current < 65536 := by
  constructor
  · rintro ⟨blob, hblob, -⟩
    obtain ⟨-, -, h0, hlt, -⟩ := encrypt_eq_ok hblob
    exact ⟨h0, hlt⟩
  · rintro ⟨h0, hlt⟩
    have hencrypt : ∃ blob, encrypt aes nonce plaintext aad ring = .ok blob := exists_encrypt h0 hlt
    obtain ⟨blob, hblob⟩ := hencrypt
    exact ⟨blob, hblob, sealed_of_encrypt haes hblob⟩

/-! ## The current version of an accepted text -/

/-- The version numbers a text gives keys for. -/
def versions (raw : String) : List Int := (entries raw).filterMap entryVersion

/-- The highest version number fits the envelope's two bytes. -/
def HighestFits (raw : String) : Prop := (∃ v ∈ versions raw, 0 ≤ v) ∧ ∀ v ∈ versions raw, v < 65536

theorem entryVersion_of_parse {entry : String} {found : Int × Key} (h : parseEntry entry = .ok found) :
    entryVersion entry = some found.1 := by
  unfold parseEntry at h
  split at h
  · cases h
  · rename_i v hv
    split at h
    · cases h
    · split at h
      · cases h
        exact hv
      · cases h

/-- The current version is the highest of those there were and those that are put. -/
theorem putEntries_current {l : List String} : ∀ {ring ring' : Keyring}, l.foldlM putEntry ring = .ok ring' →
    (ring'.current = ring.current ∨ ring'.current ∈ l.filterMap entryVersion) ∧ ring.current ≤ ring'.current ∧
      ∀ v ∈ l.filterMap entryVersion, v ≤ ring'.current := by
  induction l with
  | nil =>
    intro ring ring' h
    obtain rfl : ring = ring' := Except.ok.inj h
    exact ⟨.inl rfl, le_refl _, fun v hv => absurd hv List.not_mem_nil⟩
  | cons entry rest ih =>
    intro ring ring' h
    rw [List.foldlM_cons] at h
    unfold putEntry at h
    cases hentry : parseEntry entry with
    | error e =>
      rw [hentry] at h
      cases h
    | ok found =>
      rw [hentry] at h
      obtain ⟨hcurrent, hle, hrest⟩ := ih h
      have hmax : (ring.put found.1 found.2).current = max ring.current found.1 := rfl
      rw [hmax] at hcurrent hle
      rw [List.filterMap_cons_some (entryVersion_of_parse hentry)]
      refine ⟨?_, le_trans (le_max_left _ _) hle, fun v hv => ?_⟩
      · rcases hcurrent with heq | hmem
        · rcases max_choice ring.current found.1 with hm | hm
          · exact .inl (heq.trans hm)
          · exact .inr (List.mem_cons.2 (.inl (heq.trans hm)))
        · exact .inr (List.mem_cons_of_mem _ hmem)
      · rcases List.mem_cons.1 hv with rfl | hv
        · exact le_trans (le_max_right _ _) hle
        · exact hrest v hv

/-- **The current version is the highest of the text's.** -/
theorem parseKeyring_current {raw : String} (h : parseKeyring raw = .ok ring) :
    ring.current ∈ versions raw ∧ ∀ v ∈ versions raw, v ≤ ring.current := by
  unfold parseKeyring at h
  unfold versions
  cases hentries : entries raw with
  | nil =>
    rw [hentries] at h
    cases h
  | cons entry rest =>
    rw [hentries] at h
    dsimp only at h
    cases hentry : parseEntry entry with
    | error e =>
      rw [hentry] at h
      cases h
    | ok found =>
      rw [hentry] at h
      obtain ⟨hcurrent, hle, hrest⟩ := putEntries_current h
      rw [List.filterMap_cons_some (entryVersion_of_parse hentry)]
      refine ⟨List.mem_cons.2 hcurrent, fun v hv => ?_⟩
      rcases List.mem_cons.1 hv with rfl | hv
      · exact hle
      · exact hrest v hv

/-- **An accepted keyring seals exactly where its highest version number fits the envelope.** -/
theorem accepted_seals_iff {raw : String} (haes : aes.Authentic) (h : parseKeyring raw = .ok ring) (nonce : Nonce)
    (plaintext : String) (aad : Bytes) : Seals aes nonce plaintext aad ring ↔ HighestFits raw := by
  obtain ⟨hmem, hhighest⟩ := parseKeyring_current h
  rw [seals_iff haes]
  constructor
  · rintro ⟨h0, hlt⟩
    exact ⟨⟨_, hmem, h0⟩, fun v hv => lt_of_le_of_lt (hhighest v hv) hlt⟩
  · rintro ⟨⟨v, hv, h0⟩, hlt⟩
    exact ⟨le_trans h0 (hhighest v hv), hlt _ hmem⟩

/-- One key under version 2. -/
def oneKey : String := "v2:AAAAAAAAAAAAAAAAAAAAAAAAAAAAAAAAAAAAAAAAAAA="

def zeroNonce : Nonce := ⟨List.replicate NONCE_BYTES 0, by decide⟩

theorem exists_ring {raw : String} {version : Int}
    (h : (parseKeyring raw).toOption.map Keyring.current = some version) :
    ∃ ring, parseKeyring raw = .ok ring ∧ ring.current = version := by
  cases hring : parseKeyring raw with
  | error e =>
    rw [hring] at h
    cases h
  | ok ring =>
    rw [hring] at h
    exact ⟨ring, rfl, Option.some.inj h⟩

theorem one_key_seals : ∃ ring, parseKeyring oneKey = .ok ring ∧ Seals AESGCM.closed zeroNonce "xoxp" [1] ring := by
  have hparsed : (parseKeyring oneKey).toOption.map Keyring.current = some 2 := by decide +kernel
  obtain ⟨ring, hring, -⟩ := exists_ring hparsed
  have hfits : HighestFits oneKey := by
    unfold HighestFits
    decide +kernel
  exact ⟨ring, hring, (accepted_seals_iff AESGCM.closed_authentic hring zeroNonce "xoxp" [1]).2 hfits⟩

/-- The same key under version 65536. -/
def wideVersion : String := "v65536:AAAAAAAAAAAAAAAAAAAAAAAAAAAAAAAAAAAAAAAAAAA="

/-- The text is accepted, and nothing is ever encrypted under it. -/
theorem wide_version_overflows : ∃ ring, parseKeyring wideVersion = .ok ring ∧ ∀ aes nonce plaintext aad,
    encrypt aes nonce plaintext aad ring = .error (.overflow "int too big to convert") := by
  have hparsed : (parseKeyring wideVersion).toOption.map Keyring.current = some 65536 := by decide +kernel
  obtain ⟨ring, hring, hcurrent⟩ := exists_ring hparsed
  refine ⟨ring, hring, fun aes nonce plaintext aad => ?_⟩
  obtain ⟨k, hk⟩ := ring.lookup_current
  unfold encrypt
  rw [Keyring.keyFor_eq_ok.2 hk, hcurrent]
  rfl

end Crypto
end SafeSend
