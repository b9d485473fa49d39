import SafeSend.Text
/-!
# SHA-256

`hashlib.sha256(payload).hexdigest()`.  The words are natural numbers below 2³², so that a digest is computed by the
same definition that is reasoned about.
-/
namespace SafeSend
namespace Sha256

open Text (Bytes)

def add32 (a b : Nat) : Nat := (a + b) % 4294967296

def rotr (x n : Nat) : Nat := (x >>> n) ||| ((x <<< (32 - n)) % 4294967296)

def roundConstants : List Nat := [
  0x428a2f98, 0x71374491, 0xb5c0fbcf, 0xe9b5dba5, 0x3956c25b, 0x59f111f1, 0x923f82a4, 0xab1c5ed5,
  0xd807aa98, 0x12835b01, 0x243185be, 0x550c7dc3, 0x72be5d74, 0x80deb1fe, 0x9bdc06a7, 0xc19bf174,
  0xe49b69c1, 0xefbe4786, 0x0fc19dc6, 0x240ca1cc, 0x2de92c6f, 0x4a7484aa, 0x5cb0a9dc, 0x76f988da,
  0x983e5152, 0xa831c66d, 0xb00327c8, 0xbf597fc7, 0xc6e00bf3, 0xd5a79147, 0x06ca6351, 0x14292967,
  0x27b70a85, 0x2e1b2138, 0x4d2c6dfc, 0x53380d13, 0x650a7354, 0x766a0abb, 0x81c2c92e, 0x92722c85,
  0xa2bfe8a1, 0xa81a664b, 0xc24b8b70, 0xc76c51a3, 0xd192e819, 0xd6990624, 0xf40e3585, 0x106aa070,
  0x19a4c116, 0x1e376c08, 0x2748774c, 0x34b0bcb5, 0x391c0cb3, 0x4ed8aa4a, 0x5b9cca4f, 0x682e6ff3,
  0x748f82ee, 0x78a5636f, 0x84c87814, 0x8cc70208, 0x90befffa, 0xa4506ceb, 0xbef9a3f7, 0xc67178f2]

structure Hash where
  a : Nat
  b : Nat
  c : Nat
  d : Nat
  e : Nat
  f : Nat
  g : Nat
  h : Nat

def start : Hash :=
  ⟨0x6a09e667, 0xbb67ae85, 0x3c6ef372, 0xa54ff53a, 0x510e527f, 0x9b05688c, 0x1f83d9ab, 0x5be0cd19⟩

/-- The next schedule word, from the sixteen before it. -/
def nextWord (w : List Nat) : Nat :=
  let w1 := w.getD 1 0
  let w14 := w.getD 14 0
  let s0 := rotr w1 7 ^^^ rotr w1 18 ^^^ (w1 >>> 3)
  let s1 := rotr w14 17 ^^^ rotr w14 19 ^^^ (w14 >>> 10)
  add32 (add32 (w.headD 0) s0) (add32 (w.getD 9 0) s1)

/-- The schedule's first `n` words, the window being its next sixteen. -/
def schedule : Nat → List Nat → List Nat
  | 0, _ => []
  | n + 1, w => w.headD 0 :: schedule n (w.tail ++ [nextWord w])

def round (s : Hash) (kw : Nat × Nat) : Hash :=
  let s1 := rotr s.e 6 ^^^ rotr s.e 11 ^^^ rotr s.e 25
  let ch := (s.e &&& s.f) ^^^ ((4294967295 - s.e) &&& s.g)
  let t1 := add32 (add32 s.h s1) (add32 ch (add32 kw.1 kw.2))
  let s0 := rotr s.a 2 ^^^ rotr s.a 13 ^^^ rotr s.a 22
  let maj := (s.a &&& s.b) ^^^ (s.a &&& s.c) ^^^ (s.b &&& s.c)
  ⟨add32 t1 (add32 s0 maj), s.a, s.b, s.c, add32 s.d t1, s.e, s.f, s.g⟩

def compress (s : Hash) (block : List Nat) : Hash :=
  let r := (roundConstants.zip (schedule 64 block)).foldl round s
  ⟨add32 s.a r.a, add32 s.b r.b, add32 s.c r.c, add32 s.d r.d, add32 s.e r.e, add32 s.f r.f, add32 s.g r.g,
    add32 s.h r.h⟩

/-- The big-endian number some bytes spell. -/
def bigEndian (l : List Nat) : Nat := l.foldl (fun acc b => acc * 256 + b) 0

/-- A message in words, four bytes each. -/
def words : List Nat → List Nat
  | a :: b :: c :: d :: l => bigEndian [a, b, c, d] :: words l
  | _ => []

/-- The message, a one bit, zeros up to the last eight bytes of a block, and its length in bits. -/
def pad (raw : Bytes) : List Nat :=
  let n := raw.length
  raw.map UInt8.toNat ++ 0x80 :: List.replicate ((119 - n % 64) % 64) 0 ++
    (List.range 8).map fun i => (8 * n) >>> (8 * (7 - i)) % 256

def blocks : Nat → List Nat → List (List Nat)
  | 0, _ => []
  | n + 1, w => w.take 16 :: blocks n (w.drop 16)

def digest (raw : Bytes) : Hash :=
  let w := words (pad raw)
  (blocks (w.length / 16) w).foldl compress start

def hexDigit (n : Nat) : Char := "0123456789abcdef".toList.getD n '0'

def hexWord (n : Nat) : List Char := (List.range 8).map fun i => hexDigit ((n >>> (4 * (7 - i))) % 16)

def hexdigest (raw : Bytes) : String :=
  let s := digest raw
  String.ofList ([s.a, s.b, s.c, s.d, s.e, s.f, s.g, s.h].flatMap hexWord)

/-- `digest()`. -/
def digestBytes (raw : Bytes) : Bytes :=
  let s := digest raw
  [s.a, s.b, s.c, s.d, s.e, s.f, s.g, s.h].flatMap fun w => (List.range 4).map fun i => UInt8.ofNat (w >>> (8 * (3 - i)))

/-- A key as long as a block. -/
def blockKey (key : Bytes) : Bytes :=
  let k := if key.length > 64 then digestBytes key else key
  k ++ List.replicate (64 - k.length) 0

/-- `hmac.new(key, body, hashlib.sha256).digest()`. -/
def hmac (key body : Bytes) : Bytes :=
  let k := blockKey key
  digestBytes (k.map (· ^^^ 0x5c) ++ digestBytes (k.map (· ^^^ 0x36) ++ body))

theorem digestBytes_ne_nil (raw : Bytes) : digestBytes raw ≠ [] := by
  unfold digestBytes
  simp [List.range_succ]

end Sha256
end SafeSend
