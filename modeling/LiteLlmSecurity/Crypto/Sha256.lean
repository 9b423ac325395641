import Mathlib.Init

/-!
# SHA-256, executable

The hash function of FIPS 180-4 over lists of bytes. Words are natural numbers
below `2 ^ 32`, on which the kernel computes directly, so that statements about an
arbitrary hash can be instantiated with the real one. No property of it is assumed
or proved beyond the width of its output.
-/

namespace Sha256

/-- The chaining value: eight words. -/
structure State where
  (a b c d e f g h : Nat)

def initial : State where
  a := 0x6a09e667
  b := 0xbb67ae85
  c := 0x3c6ef372
  d := 0xa54ff53a
  e := 0x510e527f
  f := 0x9b05688c
  g := 0x1f83d9ab
  h := 0x5be0cd19

/-- The round constants. -/
def constants : List Nat := [
  0x428a2f98, 0x71374491, 0xb5c0fbcf, 0xe9b5dba5, 0x3956c25b, 0x59f111f1, 0x923f82a4, 0xab1c5ed5,
  0xd807aa98, 0x12835b01, 0x243185be, 0x550c7dc3, 0x72be5d74, 0x80deb1fe, 0x9bdc06a7, 0xc19bf174,
  0xe49b69c1, 0xefbe4786, 0x0fc19dc6, 0x240ca1cc, 0x2de92c6f, 0x4a7484aa, 0x5cb0a9dc, 0x76f988da,
  0x983e5152, 0xa831c66d, 0xb00327c8, 0xbf597fc7, 0xc6e00bf3, 0xd5a79147, 0x06ca6351, 0x14292967,
  0x27b70a85, 0x2e1b2138, 0x4d2c6dfc, 0x53380d13, 0x650a7354, 0x766a0abb, 0x81c2c92e, 0x92722c85,
  0xa2bfe8a1, 0xa81a664b, 0xc24b8b70, 0xc76c51a3, 0xd192e819, 0xd6990624, 0xf40e3585, 0x106aa070,
  0x19a4c116, 0x1e376c08, 0x2748774c, 0x34b0bcb5, 0x391c0cb3, 0x4ed8aa4a, 0x5b9cca4f, 0x682e6ff3,
  0x748f82ee, 0x78a5636f, 0x84c87814, 0x8cc70208, 0x90befffa, 0xa4506ceb, 0xbef9a3f7, 0xc67178f2]

/-- The remainder modulo `2 ^ 32`. -/
def wrap (x : Nat) : Nat := x % 0x100000000

def rotateRight (x n : Nat) : Nat := (x >>> n) ||| wrap (x <<< (32 - n))

def bigSigma0 (x : Nat) : Nat := rotateRight x 2 ^^^ rotateRight x 13 ^^^ rotateRight x 22
def bigSigma1 (x : Nat) : Nat := rotateRight x 6 ^^^ rotateRight x 11 ^^^ rotateRight x 25
def smallSigma0 (x : Nat) : Nat := rotateRight x 7 ^^^ rotateRight x 18 ^^^ (x >>> 3)
def smallSigma1 (x : Nat) : Nat := rotateRight x 17 ^^^ rotateRight x 19 ^^^ (x >>> 10)
def choose (x y z : Nat) : Nat := (x &&& y) ^^^ ((0xffffffff - x) &&& z)
def majority (x y z : Nat) : Nat := (x &&& y) ^^^ (x &&& z) ^^^ (y &&& z)

/-- One round, on a round constant and a schedule word. -/
def round (s : State) (input : Nat × Nat) : State :=
  let t1 := s.h + bigSigma1 s.e + choose s.e s.f s.g + input.1 + input.2
  let t2 := bigSigma0 s.a + majority s.a s.b s.c
  { a := wrap (t1 + t2), b := s.a, c := s.b, d := s.c
    e := wrap (s.d + t1), f := s.e, g := s.f, h := s.g }

/-- Extend a window of sixteen words by `n` more, emitting the words that leave it. -/
def schedule : Nat → List Nat → List Nat
  | n + 1, [w0, w1, w2, w3, w4, w5, w6, w7, w8, w9, w10, w11, w12, w13, w14, w15] =>
      w0 :: schedule n [w1, w2, w3, w4, w5, w6, w7, w8, w9, w10, w11, w12, w13, w14, w15,
        wrap (w0 + smallSigma0 w1 + w9 + smallSigma1 w14)]
  | _, window => window

def compress (s : State) (block : List Nat) : State :=
  let t := (constants.zip (schedule 48 block)).foldl round s
  { a := wrap (s.a + t.a), b := wrap (s.b + t.b), c := wrap (s.c + t.c), d := wrap (s.d + t.d)
    e := wrap (s.e + t.e), f := wrap (s.f + t.f), g := wrap (s.g + t.g), h := wrap (s.h + t.h) }

/-- The message, a one bit, zeros, and the message length in bits. -/
def pad (message : List UInt8) : List UInt8 :=
  let lengthBytes := (List.range 8).map fun i =>
    UInt8.ofNat ((8 * message.length) >>> (8 * (7 - i)))
  message ++ 0x80 :: (List.replicate ((119 - message.length % 64) % 64) 0 ++ lengthBytes)

/-- Big-endian words. -/
def words : List UInt8 → List Nat
  | b0 :: b1 :: b2 :: b3 :: rest =>
      (b0.toNat <<< 24 ||| b1.toNat <<< 16 ||| b2.toNat <<< 8 ||| b3.toNat) :: words rest
  | _ => []

/-- The first `n` blocks of sixteen words. -/
def blocks : Nat → List Nat → List (List Nat)
  | 0, _ => []
  | n + 1, ws => ws.take 16 :: blocks n (ws.drop 16)

def wordBytes (w : Nat) : List UInt8 :=
  [.ofNat (w >>> 24), .ofNat (w >>> 16), .ofNat (w >>> 8), .ofNat w]

def State.bytes (s : State) : List UInt8 :=
  wordBytes s.a ++ wordBytes s.b ++ wordBytes s.c ++ wordBytes s.d ++
    wordBytes s.e ++ wordBytes s.f ++ wordBytes s.g ++ wordBytes s.h

def hash (message : List UInt8) : Vector UInt8 32 :=
  let ws := words (pad message)
  let final := (blocks (ws.length / 16) ws).foldl compress initial
  ⟨final.bytes.toArray, rfl⟩

end Sha256
