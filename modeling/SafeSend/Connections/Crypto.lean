import Mathlib.Order.MinMax
import SafeSend.Text
/-!
# Crypto

Tokens at rest: AES-256-GCM in an envelope that names the key version, `magic ‖ key_version ‖ nonce ‖ ciphertext‖tag`.
The cipher itself is a parameter: all that is relied on is that what was encrypted decrypts under the same key, nonce
and associated data.
-/
namespace SafeSend
namespace Crypto

open Text (Bytes)

def MAGIC : Bytes := [0x55, 0x53, 0x4B, 0x31]

def KEY_VERSION_BYTES : Nat := 2

def NONCE_BYTES : Nat := 12

def HEADER_BYTES : Nat := MAGIC.length + KEY_VERSION_BYTES + NONCE_BYTES

def KEY_BYTES : Nat := 32

abbrev Key := { b : Bytes // b.length = KEY_BYTES }

/-- What `os.urandom(NONCE_BYTES)` may give. -/
abbrev Nonce := { b : Bytes // b.length = NONCE_BYTES }

/-- The cipher, by key, nonce, data and associated data.  Decryption answers none where it raises `InvalidTag`. -/
structure AESGCM where
  encrypt : Key → Bytes → Bytes → Bytes → Bytes
  decrypt : Key → Bytes → Bytes → Bytes → Option Bytes
  decrypt_encrypt : ∀ k n p a, decrypt k n (encrypt k n p a) a = some p

/-- A cipher that hides nothing and authenticates everything, for runs on fixed inputs. -/
def AESGCM.plain : AESGCM where
  encrypt k n p a := k.1 ++ n ++ a ++ p
  decrypt k n d a := if (k.1 ++ n ++ a).isPrefixOf d then some (d.drop (k.1 ++ n ++ a).length) else none
  decrypt_encrypt k n p a := by
    rw [if_pos (List.isPrefixOf_iff_prefix.2 (List.prefix_append _ _)), List.drop_left]

inductive CryptoError
  | keyNotFound (detail : String)
  | envelope (detail : String)
  /-- `OverflowError`, of `int.to_bytes`. -/
  | overflow (detail : String)
  /-- `UnicodeDecodeError`. -/
  | unicode (detail : String)
  deriving DecidableEq, Repr

def CryptoError.str : CryptoError → String
  | keyNotFound d | envelope d | overflow d | unicode d => d

/-- Dropping other keys loses no entry of this one. -/
theorem lookup_filter {κ α : Type} [BEq κ] [LawfulBEq κ] {p : κ → Bool} {k : κ} (hp : p k = true) :
    ∀ l : List (κ × α), (l.filter fun e => p e.1).lookup k = l.lookup k
  | [] => rfl
  | (j, a) :: l => by
    have ih := lookup_filter hp l
    by_cases hj : p j = true
    · rw [List.filter_cons_of_pos (p := fun e : κ × α => p e.1) (a := (j, a)) hj, List.lookup_cons, List.lookup_cons, ih]
    · have hne : (k == j) = false := beq_eq_false_iff_ne.2 fun he => hj (he ▸ hp)
      rw [List.filter_cons_of_neg (p := fun e : κ × α => p e.1) (a := (j, a)) hj, List.lookup_cons, hne, ih]

/-- Version -> key; `current` is what new writes use, and the highest. -/
structure Keyring where
  keys : List (Int × Key)
  current : Int
  held : (keys.lookup current).isSome
  highest : ∀ p ∈ keys, p.1 ≤ current

namespace Keyring

def keyFor (ring : Keyring) (version : Int) : Except CryptoError Key :=
  match ring.keys.lookup version with
  | some key => .ok key
  | none =>
    let available := (ring.keys.map Prod.fst).mergeSort fun a b => a ≤ b
    let shown := if available.isEmpty then "(none)" else "[" ++ ", ".intercalate (available.map toString) ++ "]"
    .error (.keyNotFound ("no key with version " ++ toString version ++ " in this keyring; available: " ++ shown))

/-- A keyring of one key. -/
def single (version : Int) (key : Key) : Keyring where
  keys := [(version, key)]
  current := version
  held := by simp
  highest p hp := le_of_eq (congrArg Prod.fst (List.mem_singleton.1 hp))

/-- One more entry of `TOKEN_KEYRING`: the highest version is the current one. -/
def add (ring : Keyring) (version : Int) (key : Key) : Keyring where
  keys := (version, key) :: ring.keys
  current := max ring.current version
  held := by
    by_cases h : max ring.current version = version
    · rw [h, List.lookup_cons_self]
      rfl
    · have hr : max ring.current version = ring.current := (max_choice _ _).resolve_right h
      have hne : (ring.current == version) = false := beq_eq_false_iff_ne.2 fun he => h (hr.trans he)
      rw [hr, List.lookup_cons, hne]
      exact ring.held
  highest p hp := by
    rcases List.mem_cons.1 hp with rfl | hp
    · exact le_max_right _ _
    · exact le_trans (ring.highest p hp) (le_max_left _ _)

/-- The keyring from which every version below the current one has been dropped. -/
def withoutOlder (ring : Keyring) : Keyring where
  keys := ring.keys.filter fun p => decide (ring.current ≤ p.1)
  current := ring.current
  held := by
    rw [lookup_filter (p := fun v => decide (ring.current ≤ v)) (decide_eq_true (le_refl _))]
    exact ring.held
  highest p hp := ring.highest p (List.mem_filter.1 hp).1

end Keyring

/-- `v.to_bytes(KEY_VERSION_BYTES, "big")`. -/
def toBytes (v : Int) : Except CryptoError Bytes :=
  if v < 0 then .error (.overflow "can't convert negative int to unsigned")
  else if v ≥ 65536 then .error (.overflow "int too big to convert")
  else .ok [.ofNat (v.toNat / 256), .ofNat (v.toNat % 256)]

/-- `int.from_bytes(b, "big")`. -/
def fromBytes (b : Bytes) : Nat := b.foldl (fun n x => n * 256 + x.toNat) 0

/-- The row identity a ciphertext is bound to. -/
def aadFor (connectionId : Nat) (provider field : String) : Bytes :=
  Text.encode ("conn:" ++ toString connectionId ++ ":" ++ provider ++ ":" ++ field)

def keyVersionOf (blob : Bytes) : Except CryptoError Nat :=
  if blob.length < HEADER_BYTES ∨ !MAGIC.isPrefixOf blob then
    .error (.envelope "not a token envelope: bad magic or truncated header")
  else .ok (fromBytes ((blob.drop MAGIC.length).take KEY_VERSION_BYTES))

variable (aes : AESGCM)

def encrypt (nonce : Nonce) (plaintext : String) (aad : Bytes) (ring : Keyring) : Except CryptoError Bytes := do
  let key ← ring.keyFor ring.current
  let ct := aes.encrypt key nonce.1 (Text.encode plaintext) aad
  let version ← toBytes ring.current
  return MAGIC ++ version ++ nonce.1 ++ ct

def decrypt (blob aad : Bytes) (ring : Keyring) : Except CryptoError String := do
  let version ← keyVersionOf blob
  let key ← ring.keyFor version
  let nonce := (blob.drop (MAGIC.length + KEY_VERSION_BYTES)).take NONCE_BYTES
  match aes.decrypt key nonce (blob.drop HEADER_BYTES) aad with
  | none =>
    throw (.envelope
      "token failed authentication: it was encrypted for a different row or field, or it has been modified")
  | some plaintext =>
    match Text.decode plaintext with
    | none => throw (.unicode "invalid start byte")
    | some s => return s

/-! ## The envelope -/

variable {aes : AESGCM} {nonce : Nonce} {plaintext : String} {aad blob : Bytes} {ring : Keyring}

theorem Keyring.keyFor_eq_ok {v : Int} {k : Key} : ring.keyFor v = .ok k ↔ ring.keys.lookup v = some k := by
  unfold Keyring.keyFor
  cases ring.keys.lookup v with
  | none => simp
  | some j => simp

theorem toBytes_eq_ok {v : Int} {b : Bytes} (h : toBytes v = .ok b) :
    0 ≤ v ∧ v < 65536 ∧ b = [.ofNat (v.toNat / 256), .ofNat (v.toNat % 256)] := by
  unfold toBytes at h
  by_cases hn : v < 0
  · rw [if_pos hn] at h
    cases h
  · rw [if_neg hn] at h
    by_cases hv : v ≥ 65536
    · rw [if_pos hv] at h
      cases h
    · rw [if_neg hv, Except.ok.injEq] at h
      exact ⟨by omega, by omega, h.symm⟩

theorem fromBytes_two (n : Nat) (h : n < 65536) : fromBytes [.ofNat (n / 256), .ofNat (n % 256)] = n := by
  unfold fromBytes
  simp only [List.foldl_cons, List.foldl_nil, UInt8.toNat_ofNat']
  omega

theorem ct_sealed (hi lo : UInt8) (nonce : Nonce) (ct : Bytes) :
    (MAGIC ++ [hi, lo] ++ nonce.1 ++ ct).drop HEADER_BYTES = ct :=
  List.drop_left' (by rw [List.length_append, List.length_append, nonce.2]; rfl)

theorem nonce_sealed (hi lo : UInt8) (nonce : Nonce) (ct : Bytes) :
    ((MAGIC ++ [hi, lo] ++ nonce.1 ++ ct).drop (MAGIC.length + KEY_VERSION_BYTES)).take NONCE_BYTES = nonce.1 := by
  rw [List.append_assoc, List.drop_left' (by rw [List.length_append]; rfl)]
  exact List.take_left' nonce.2

/-- **What an envelope is made of.** -/
theorem encrypt_eq_ok (h : encrypt aes nonce plaintext aad ring = .ok blob) :
    ∃ k, ring.keys.lookup ring.current = some k ∧ 0 ≤ ring.current ∧ ring.current < 65536 ∧
      blob = MAGIC ++ [.ofNat (ring.current.toNat / 256), .ofNat (ring.current.toNat % 256)] ++ nonce.1 ++
        aes.encrypt k nonce.1 (Text.encode plaintext) aad := by
  unfold encrypt at h
  cases hk : ring.keyFor ring.current with
  | error e =>
    rw [hk] at h
    cases h
  | ok k =>
    cases hv : toBytes ring.current with
    | error e =>
      rw [hk, hv] at h
      cases h
    | ok version =>
      rw [hk, hv] at h
      obtain ⟨h0, hlt, rfl⟩ := toBytes_eq_ok hv
      refine ⟨k, Keyring.keyFor_eq_ok.1 hk, h0, hlt, ?_⟩
      cases h
      rfl

/-- **An envelope names the version it was sealed under.** -/
theorem keyVersionOf_encrypt (h : encrypt aes nonce plaintext aad ring = .ok blob) :
    ∃ v, keyVersionOf blob = .ok v ∧ (v : Int) = ring.current := by
  obtain ⟨k, -, h0, hlt, rfl⟩ := encrypt_eq_ok h
  refine ⟨ring.current.toNat, ?_, by omega⟩
  unfold keyVersionOf
  have hlen : HEADER_BYTES = 4 + 2 + 12 := rfl
  have hnonce : nonce.1.length = 12 := nonce.2
  rw [if_neg]
  · have hlow : ring.current.toNat < 65536 := by omega
    simp only [MAGIC, KEY_VERSION_BYTES, List.cons_append, List.nil_append, List.length_cons, List.length_nil,
      List.drop_succ_cons, List.drop_zero, List.take_succ_cons, List.take_zero]
    rw [fromBytes_two _ hlow]
  · simp [MAGIC, hlen, hnonce]

/-- **An envelope opens** under every keyring that holds the key it was sealed under. -/
theorem decrypt_encrypt {ring' : Keyring} (h : encrypt aes nonce plaintext aad ring = .ok blob)
    (hkey : ring'.keys.lookup ring.current = ring.keys.lookup ring.current) :
    decrypt aes blob aad ring' = .ok plaintext := by
  obtain ⟨v, hv, hvr⟩ := keyVersionOf_encrypt h
  obtain ⟨k, hk, -, -, rfl⟩ := encrypt_eq_ok h
  have hring : ring'.keyFor (v : Int) = .ok k := Keyring.keyFor_eq_ok.2 (by rw [hvr, hkey, hk])
  unfold decrypt
  rw [hv]
  simp only [bind, Except.bind, hring, nonce_sealed, ct_sealed, aes.decrypt_encrypt, Text.decode_encode]
  rfl

/-! ## Keyrings that grow -/

/-- Every key of the one is in the other, under its version. -/
def Keyring.Within (r r' : Keyring) : Prop := ∀ v k, r.keys.lookup v = some k → r'.keys.lookup v = some k

theorem Keyring.Within.refl (r : Keyring) : r.Within r := fun _ _ h => h

theorem Keyring.Within.trans {r s t : Keyring} (h : r.Within s) (h' : s.Within t) : r.Within t :=
  fun v k hk => h' v k (h v k hk)

/-- A version that has a key is at most the current one. -/
theorem Keyring.le_current {v : Int} {k : Key} (h : ring.keys.lookup v = some k) : v ≤ ring.current := by
  obtain ⟨l, l', hl, -⟩ := List.lookup_eq_some_iff.1 h
  exact ring.highest (v, k) (by rw [hl]; simp)

theorem Keyring.lookup_current (r : Keyring) : ∃ k, r.keys.lookup r.current = some k :=
  Option.isSome_iff_exists.1 r.held

/-- In a larger keyring the current version is no lower, and has the same key. -/
theorem Keyring.Within.current {r s : Keyring} (h : r.Within s) :
    r.current ≤ s.current ∧ s.keys.lookup r.current = r.keys.lookup r.current := by
  obtain ⟨k, hk⟩ := r.lookup_current
  exact ⟨Keyring.le_current (h _ _ hk), by rw [hk, h _ _ hk]⟩

theorem Keyring.within_add {v : Int} (h : ring.keys.lookup v = none) (k : Key) : ring.Within (ring.add v k) := by
  intro j i hj
  have hne : (j == v) = false := by
    refine beq_eq_false_iff_ne.2 fun he => ?_
    rw [he, h] at hj
    cases hj
  show List.lookup j ((v, k) :: ring.keys) = some i
  rw [List.lookup_cons, hne]
  exact hj

/-- What a keyring opens, a larger one opens to the same. -/
theorem decrypt_within {r r' : Keyring} (h : r.Within r') (ho : decrypt aes blob aad r = .ok plaintext) :
    decrypt aes blob aad r' = .ok plaintext := by
  unfold decrypt at ho ⊢
  cases hv : keyVersionOf blob with
  | error e =>
    rw [hv] at ho
    cases ho
  | ok v =>
    simp only [hv, bind, Except.bind] at ho ⊢
    cases hk : r.keyFor v with
    | error e =>
      rw [hk] at ho
      cases ho
    | ok k =>
      rw [Keyring.keyFor_eq_ok.2 (h _ _ (Keyring.keyFor_eq_ok.1 hk))]
      rw [hk] at ho
      exact ho

theorem Keyring.lookup_withoutOlder {v : Int} (h : ring.current ≤ v) :
    ring.withoutOlder.keys.lookup v = ring.keys.lookup v :=
  lookup_filter (p := fun v => decide (ring.current ≤ v)) (decide_eq_true h) _

end Crypto
end SafeSend
