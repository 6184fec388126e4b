import Mathlib.Data.List.Basic

/-!
# SHA-256

The hash function on texts, on natural numbers below `2 ^ 32`, with the
hexadecimal form of an initial part of the digest.
-/

namespace Sha256

/-- The bytes of a text in UTF-8. -/
def utf8Char (c : Char) : List Nat :=
  let n := c.toNat
  if n < 0x80 then [n]
  else if n < 0x800 then [0xC0 + n / 64, 0x80 + n % 64]
  else if n < 0x10000 then [0xE0 + n / 4096, 0x80 + n / 64 % 64, 0x80 + n % 64]
  else [0xF0 + n / 262144, 0x80 + n / 4096 % 64, 0x80 + n / 64 % 64, 0x80 + n % 64]

def utf8 (s : String) : List Nat := s.toList.flatMap utf8Char

def width : Nat := 4294967296

def add (a b : Nat) : Nat := (a + b) % width

def rotr (x n : Nat) : Nat := (x >>> n) ||| ((x <<< (32 - n)) % width)

def complement (x : Nat) : Nat := width - 1 - x

def roundConstants : List Nat :=
  [0x428a2f98, 0x71374491, 0xb5c0fbcf, 0xe9b5dba5, 0x3956c25b, 0x59f111f1, 0x923f82a4, 0xab1c5ed5,
   0xd807aa98, 0x12835b01, 0x243185be, 0x550c7dc3, 0x72be5d74, 0x80deb1fe, 0x9bdc06a7, 0xc19bf174,
   0xe49b69c1, 0xefbe4786, 0x0fc19dc6, 0x240ca1cc, 0x2de92c6f, 0x4a7484aa, 0x5cb0a9dc, 0x76f988da,
   0x983e5152, 0xa831c66d, 0xb00327c8, 0xbf597fc7, 0xc6e00bf3, 0xd5a79147, 0x06ca6351, 0x14292967,
   0x27b70a85, 0x2e1b2138, 0x4d2c6dfc, 0x53380d13, 0x650a7354, 0x766a0abb, 0x81c2c92e, 0x92722c85,
   0xa2bfe8a1, 0xa81a664b, 0xc24b8b70, 0xc76c51a3, 0xd192e819, 0xd6990624, 0xf40e3585, 0x106aa070,
   0x19a4c116, 0x1e376c08, 0x2748774c, 0x34b0bcb5, 0x391c0cb3, 0x4ed8aa4a, 0x5b9cca4f, 0x682e6ff3,
   0x748f82ee, 0x78a5636f, 0x84c87814, 0x8cc70208, 0x90befffa, 0xa4506ceb, 0xbef9a3f7, 0xc67178f2]

/-- The eight words of the state. -/
structure State where
  a : Nat
  b : Nat
  c : Nat
  d : Nat
  e : Nat
  f : Nat
  g : Nat
  h : Nat

def initial : State :=
  ⟨0x6a09e667, 0xbb67ae85, 0x3c6ef372, 0xa54ff53a, 0x510e527f, 0x9b05688c, 0x1f83d9ab, 0x5be0cd19⟩

/-- The bytes of a number, most significant first. -/
def bigEndian : Nat → Nat → List Nat
  | 0, _ => []
  | n + 1, x => (x >>> (8 * n)) % 256 :: bigEndian n x

/-- A message padded to whole blocks. -/
def pad (bytes : List Nat) : List Nat :=
  let len := bytes.length
  bytes ++ [0x80] ++ List.replicate ((119 - len % 64) % 64) 0 ++ bigEndian 8 (8 * len)

/-- Four bytes as a word. -/
def toWords : List Nat → List Nat
  | a :: b :: c :: d :: rest =>
      (((a <<< 24) + (b <<< 16) + (c <<< 8) + d) :: toWords rest)
  | _ => []

/-- The next words of the message schedule, given the last sixteen. -/
def schedule : Nat → List Nat → List Nat
  | 0, _ => []
  | n + 1, ws =>
      match ws with
      | w0 :: rest =>
          let w1 := rest.getD 0 0
          let w9 := rest.getD 8 0
          let w14 := rest.getD 13 0
          let s0 := (rotr w1 7 ^^^ rotr w1 18) ^^^ (w1 >>> 3)
          let s1 := (rotr w14 17 ^^^ rotr w14 19) ^^^ (w14 >>> 10)
          let w := add (add w0 s0) (add w9 s1)
          w0 :: schedule n (rest ++ [w])
      | [] => []

def round (s : State) (kw : Nat × Nat) : State :=
  let s1 := (rotr s.e 6 ^^^ rotr s.e 11) ^^^ rotr s.e 25
  let ch := (s.e &&& s.f) ^^^ (complement s.e &&& s.g)
  let t1 := add (add s.h s1) (add ch (add kw.1 kw.2))
  let s0 := (rotr s.a 2 ^^^ rotr s.a 13) ^^^ rotr s.a 22
  let maj := ((s.a &&& s.b) ^^^ (s.a &&& s.c)) ^^^ (s.b &&& s.c)
  ⟨add t1 (add s0 maj), s.a, s.b, s.c, add s.d t1, s.e, s.f, s.g⟩

def block (s : State) (words : List Nat) : State :=
  let r := (roundConstants.zip (schedule 64 words)).foldl round s
  ⟨add s.a r.a, add s.b r.b, add s.c r.c, add s.d r.d, add s.e r.e, add s.f r.f, add s.g r.g,
    add s.h r.h⟩

/-- All blocks of a padded message. -/
def blocks : Nat → State → List Nat → State
  | 0, s, _ => s
  | n + 1, s, ws => if ws.isEmpty then s else blocks n (block s (ws.take 16)) (ws.drop 16)

def digest (s : String) : List Nat :=
  let ws := toWords (pad (utf8 s))
  let r := blocks ws.length initial ws
  [r.a, r.b, r.c, r.d, r.e, r.f, r.g, r.h]

def hexDigit (n : Nat) : Char :=
  if n % 16 < 10 then Char.ofNat (48 + n % 16) else Char.ofNat (87 + n % 16)

/-- A word as eight hexadecimal digits. -/
def hexWord (w : Nat) : List Char :=
  [28, 24, 20, 16, 12, 8, 4, 0].map fun k => hexDigit (w >>> k)

/-- The first `n` words of the digest in hexadecimal form. -/
def hex (n : Nat) (s : String) : String := String.ofList (((digest s).take n).flatMap hexWord)

theorem length_hex (s : String) : (hex 1 s).length = 8 := by
  simp [hex, digest, hexWord]

end Sha256
