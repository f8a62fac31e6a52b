import Mathlib.Data.List.Defs
import Mathlib.Data.Nat.Notation

/-!
# SHA-256

The hash function of FIPS 180-4 on byte lists. Words are naturals below `2 ^ 32`, so that the
kernel evaluates a digest with its arithmetic on naturals.

* `sha256` — the digest as eight words.
* `hexdigest` — the digest as 64 lowercase hexadecimal characters.
-/

namespace HarnessLabs.Sha256

/-- The length of a word. -/
def modulus : ℕ := Nat.pow 2 32

def add (a b : ℕ) : ℕ := (a + b) % modulus

def rotr (k x : ℕ) : ℕ := (x >>> k ||| x <<< (32 - k)) % modulus

def ch (x y z : ℕ) : ℕ := (x &&& y) ^^^ ((modulus - 1 - x) &&& z)

def maj (x y z : ℕ) : ℕ := (x &&& y) ^^^ (x &&& z) ^^^ (y &&& z)

def bigSigma0 (x : ℕ) : ℕ := rotr 2 x ^^^ rotr 13 x ^^^ rotr 22 x

def bigSigma1 (x : ℕ) : ℕ := rotr 6 x ^^^ rotr 11 x ^^^ rotr 25 x

def smallSigma0 (x : ℕ) : ℕ := rotr 7 x ^^^ rotr 18 x ^^^ x >>> 3

def smallSigma1 (x : ℕ) : ℕ := rotr 17 x ^^^ rotr 19 x ^^^ x >>> 10

/-- The round constants: the fractional parts of the cube roots of the first 64 primes. -/
def roundConstants : List ℕ :=
  [0x428a2f98, 0x71374491, 0xb5c0fbcf, 0xe9b5dba5, 0x3956c25b, 0x59f111f1, 0x923f82a4, 0xab1c5ed5,
   0xd807aa98, 0x12835b01, 0x243185be, 0x550c7dc3, 0x72be5d74, 0x80deb1fe, 0x9bdc06a7, 0xc19bf174,
   0xe49b69c1, 0xefbe4786, 0x0fc19dc6, 0x240ca1cc, 0x2de92c6f, 0x4a7484aa, 0x5cb0a9dc, 0x76f988da,
   0x983e5152, 0xa831c66d, 0xb00327c8, 0xbf597fc7, 0xc6e00bf3, 0xd5a79147, 0x06ca6351, 0x14292967,
   0x27b70a85, 0x2e1b2138, 0x4d2c6dfc, 0x53380d13, 0x650a7354, 0x766a0abb, 0x81c2c92e, 0x92722c85,
   0xa2bfe8a1, 0xa81a664b, 0xc24b8b70, 0xc76c51a3, 0xd192e819, 0xd6990624, 0xf40e3585, 0x106aa070,
   0x19a4c116, 0x1e376c08, 0x2748774c, 0x34b0bcb5, 0x391c0cb3, 0x4ed8aa4a, 0x5b9cca4f, 0x682e6ff3,
   0x748f82ee, 0x78a5636f, 0x84c87814, 0x8cc70208, 0x90befffa, 0xa4506ceb, 0xbef9a3f7, 0xc67178f2]

/-- The chaining value: eight words. -/
structure Chain where
  a : ℕ
  b : ℕ
  c : ℕ
  d : ℕ
  e : ℕ
  f : ℕ
  g : ℕ
  h : ℕ
  deriving DecidableEq

/-- The fractional parts of the square roots of the first eight primes. -/
def initial : Chain :=
  ⟨0x6a09e667, 0xbb67ae85, 0x3c6ef372, 0xa54ff53a, 0x510e527f, 0x9b05688c, 0x1f83d9ab, 0x5be0cd19⟩

def round (s : Chain) (k w : ℕ) : Chain :=
  let t1 := add (add (add (add s.h (bigSigma1 s.e)) (ch s.e s.f s.g)) k) w
  let t2 := add (bigSigma0 s.a) (maj s.a s.b s.c)
  ⟨add t1 t2, s.a, s.b, s.c, add s.d t1, s.e, s.f, s.g⟩

/-- The message schedule, kept as the last sixteen words: the head is the word of this round. -/
def rounds : List ℕ → List ℕ → Chain → Chain
  | [], _, s => s
  | _ :: _, [], s => s
  | k :: ks, w :: ws, s =>
    let next := add (add (add (smallSigma1 (ws.getD 13 0)) (ws.getD 8 0))
      (smallSigma0 (ws.getD 0 0))) w
    rounds ks (ws ++ [next]) (round s k w)

def compress (s : Chain) (block : List ℕ) : Chain :=
  let r := rounds roundConstants block s
  ⟨add s.a r.a, add s.b r.b, add s.c r.c, add s.d r.d, add s.e r.e, add s.f r.f, add s.g r.g,
    add s.h r.h⟩

/-! ## Padding and blocks -/

/-- `n` as `k` bytes, most significant first. -/
def bigEndian : ℕ → ℕ → List ℕ
  | 0, _ => []
  | k + 1, n => bigEndian k (n / 256) ++ [n % 256]

def pad (message : List ℕ) : List ℕ :=
  message ++ [0x80] ++ List.replicate ((119 - message.length % 64) % 64) 0 ++
    bigEndian 8 (8 * message.length)

def words : List ℕ → List ℕ
  | a :: b :: c :: d :: rest => (((a * 256 + b) * 256 + c) * 256 + d) :: words rest
  | _ => []

/-- Compress the words sixteen at a time. The fuel is the number of blocks. -/
def compressAll : ℕ → List ℕ → Chain → Chain
  | 0, _, s => s
  | fuel + 1, ws, s => compressAll fuel (ws.drop 16) (compress s (ws.take 16))

def sha256 (message : List ℕ) : Chain :=
  let ws := words (pad message)
  compressAll (ws.length / 16) ws initial

/-! ## The printed digest -/

def hexDigits : List Char :=
  ['0', '1', '2', '3', '4', '5', '6', '7', '8', '9', 'a', 'b', 'c', 'd', 'e', 'f']

def hexChars : ℕ → ℕ → List Char
  | 0, _ => []
  | k + 1, n => hexChars k (n / 16) ++ [hexDigits.getD (n % 16) '0']

def hexdigest (message : List ℕ) : String :=
  let s := sha256 message
  String.ofList ([s.a, s.b, s.c, s.d, s.e, s.f, s.g, s.h].flatMap (hexChars 8))

/-- The digest of the three bytes `abc` printed in the standard. -/
example : hexdigest [97, 98, 99] =
    "ba7816bf8f01cfea414140de5dae2223b00361a396177a9cb410ff61f20015ad" := by
  decide +kernel

end HarnessLabs.Sha256
