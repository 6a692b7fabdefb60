import Lhatove.Data.HashFunction
import Mathlib.Analysis.SpecialFunctions.Trigonometric.Basic

/-!
# The digests that RFC 1321 and FIPS 180-4 define

Messages are bit strings here. Everything is as the two documents have it: the
constants are fractions of sines and of roots of primes, and padding is counted
in bits.

- `MD5`: RFC 1321, sections 3.1 to 3.5;
- `SHA1`, `SHA2`: FIPS 180-4, sections 4 to 6;
- `zeros_least`, `fraction_spec`: the padding and the constants are what the
  documents say in words;
- `digest`: the digest of each function.
-/

namespace Lhatove.Data.Standard

/-! ## Padding and parsing -/

/-- The zero bits between the one bit and the length. -/
def zeros (block field l : Nat) : Nat := (2 * block - field - 1 - l % block) % block

/-- A one bit, zero bits, and the length of the message. -/
def pad (block field : Nat) (encode : Nat → List Bool) (message : List Bool) : List Bool :=
  message ++ true :: List.replicate (zeros block field message.length) false ++
    encode message.length

/-- Blocks of sixteen words are worked through one after the other. -/
def iterate {σ : Type} (w : Nat) (compute : (Nat → List Bool) → σ → σ) (padded : List Bool)
    (start : σ) : σ :=
  (List.range (padded.length / (16 * w))).foldl
    (fun value i => compute (fun t => padded.drop (16 * w * i + w * t)) value) start

/-! ## RFC 1321 -/

namespace MD5

/-- A word of a block, its low-order byte first. -/
def wordX (string : List Bool) : BitVec 32 :=
  wordOf 32 ((string.drop 24).take 8 ++ (string.drop 16).take 8 ++ (string.drop 8).take 8 ++
    string.take 8)

/-- `b` in 64 bits, the low-order word first and in each the low-order byte. -/
def lengthBits (b : Nat) : List Bool := bits (storeLE 8 (BitVec.ofNat 64 b))

/-- The integer part of 4294967296 times abs(sin(i)), `i` in radians. -/
noncomputable def T (i : Nat) : BitVec 32 := BitVec.ofNat 32 ⌊4294967296 * |Real.sin i|⌋₊

def F (X Y Z : BitVec 32) : BitVec 32 := (X &&& Y) ||| (~~~X &&& Z)

def G (X Y Z : BitVec 32) : BitVec 32 := (X &&& Z) ||| (Y &&& ~~~Z)

def H (X Y Z : BitVec 32) : BitVec 32 := X ^^^ Y ^^^ Z

def I (X Y Z : BitVec 32) : BitVec 32 := Y ^^^ (X ||| ~~~Z)

/-- The function of the round that the operation `t` (from 0) is in. -/
def auxiliary (t : Nat) : BitVec 32 → BitVec 32 → BitVec 32 → BitVec 32 :=
  if t < 16 then F else if t < 32 then G else if t < 48 then H else I

/-- Which registers are `a b c d`: ABCD, DABC, CDAB, BCDA, and again. -/
def letters (t : Nat) : Nat × Nat × Nat × Nat :=
  match t % 4 with
  | 0 => (0, 1, 2, 3)
  | 1 => (3, 0, 1, 2)
  | 2 => (2, 3, 0, 1)
  | _ => (1, 2, 3, 0)

/-- `k` of the operations, by rounds. -/
def indices : List Nat :=
  [ 0, 1, 2, 3, 4, 5, 6, 7, 8, 9, 10, 11, 12, 13, 14, 15,
    1, 6, 11, 0, 5, 10, 15, 4, 9, 14, 3, 8, 13, 2, 7, 12,
    5, 8, 11, 14, 1, 4, 7, 10, 13, 0, 3, 6, 9, 12, 15, 2,
    0, 7, 14, 5, 12, 3, 10, 1, 8, 15, 6, 13, 4, 11, 2, 9 ]

/-- `s` of the operations of each round, four and again. -/
def rotations : List (List Nat) :=
  [[7, 12, 17, 22], [5, 9, 14, 20], [4, 11, 16, 23], [6, 10, 15, 21]]

/-- `[abcd k s i]`: a = b + ((a + F(b,c,d) + X[k] + T[i]) <<< s). -/
noncomputable def operation (X : Nat → BitVec 32) (registers : List (BitVec 32)) (t : Nat) :
    List (BitVec 32) :=
  let (a, b, c, d) := letters t
  let r := fun letter => registers.getD letter 0
  let sum := r a + auxiliary t (r b) (r c) (r d) + X (indices.getD t 0) + T (t + 1)
  registers.set a (r b + sum.rotateLeft ((rotations.getD (t / 16) []).getD (t % 4) 0))

/-- One block: 64 operations, and the registers added to what they were. -/
noncomputable def compute (block : Nat → List Bool) (registers : List (BitVec 32)) :
    List (BitVec 32) :=
  List.zipWith (· + ·)
    ((List.range 64).foldl (operation fun k => wordX (block k)) registers) registers

/-- The four registers after the message, low-order bytes first. -/
noncomputable def digest (message : List Bool) : List Bool :=
  (iterate 32 compute (pad 512 64 lengthBits message)
    [0x67452301, 0xefcdab89, 0x98badcfe, 0x10325476]).flatMap fun word => bits (storeLE 4 word)

end MD5

/-! ## FIPS 180-4 -/

/-- The length as a number of `field` bits. -/
def lengthBits (field l : Nat) : List Bool := bitsOf (BitVec.ofNat field l)

section Functions

variable {w : Nat}

def Ch (x y z : BitVec w) : BitVec w := (x &&& y) ^^^ (~~~x &&& z)

def Parity (x y z : BitVec w) : BitVec w := x ^^^ y ^^^ z

def Maj (x y z : BitVec w) : BitVec w := (x &&& y) ^^^ (x &&& z) ^^^ (y &&& z)

end Functions

namespace SHA1

def f (t : Nat) : BitVec 32 → BitVec 32 → BitVec 32 → BitVec 32 :=
  if t ≤ 19 then Ch else if t ≤ 39 then Parity else if t ≤ 59 then Maj else Parity

def K (t : Nat) : BitVec 32 :=
  if t ≤ 19 then 0x5a827999 else if t ≤ 39 then 0x6ed9eba1
  else if t ≤ 59 then 0x8f1bbcdc else 0xca62c1d6

/-- The message schedule. -/
def W (M : Nat → BitVec 32) (t : Nat) : BitVec 32 :=
  if t < 16 then M t
  else (W M (t - 3) ^^^ W M (t - 8) ^^^ W M (t - 14) ^^^ W M (t - 16)).rotateLeft 1
termination_by t
decreasing_by all_goals omega

def round (W : Nat → BitVec 32) : List (BitVec 32) → Nat → List (BitVec 32)
  | [a, b, c, d, e], t => [a.rotateLeft 5 + f t b c d + e + K t + W t, a, b.rotateLeft 30, c, d]
  | working, _ => working

def compute (block : Nat → List Bool) (H : List (BitVec 32)) : List (BitVec 32) :=
  List.zipWith (· + ·) ((List.range 80).foldl (round (W fun t => wordOf 32 (block t))) H) H

def digest (message : List Bool) : List Bool :=
  (iterate 32 compute (pad 512 64 (lengthBits 64) message)
    [0x67452301, 0xefcdab89, 0x98badcfe, 0x10325476, 0xc3d2e1f0]).flatMap bitsOf

end SHA1

/-! ### Roots of primes -/

/-- The largest number below `root + 2 ^ k` whose `n`-th power is at most `m`. -/
def rootBelow (n m : Nat) : Nat → Nat → Nat
  | 0, root => root
  | k + 1, root => rootBelow n m k (if (root + 2 ^ k) ^ n ≤ m then root + 2 ^ k else root)

/-- The first `w` bits of the fractional part of the `n`-th root of `p`. -/
def fraction (n w p : Nat) : BitVec w := BitVec.ofNat w (rootBelow n (p * 2 ^ (n * w)) (w + 5) 0)

/-- The first eighty primes. -/
def primes : List Nat :=
  [ 2, 3, 5, 7, 11, 13, 17, 19, 23, 29, 31, 37, 41, 43, 47, 53,
    59, 61, 67, 71, 73, 79, 83, 89, 97, 101, 103, 107, 109, 113, 127, 131,
    137, 139, 149, 151, 157, 163, 167, 173, 179, 181, 191, 193, 197, 199, 211, 223,
    227, 229, 233, 239, 241, 251, 257, 263, 269, 271, 277, 281, 283, 293, 307, 311,
    313, 317, 331, 337, 347, 349, 353, 359, 367, 373, 379, 383, 389, 397, 401, 409 ]

/-- What the functions of the SHA-2 family differ in. -/
structure SHA2 (w : Nat) where
  rounds : Nat
  field : Nat
  H : List (BitVec w)
  size : Nat
  bigSigma0 : BitVec w → BitVec w
  bigSigma1 : BitVec w → BitVec w
  smallSigma0 : BitVec w → BitVec w
  smallSigma1 : BitVec w → BitVec w

namespace SHA2

variable {w : Nat} (s : SHA2 w)

/-- From the cube roots of the primes. -/
def K (w t : Nat) : BitVec w := fraction 3 w (primes.getD t 0)

def W (M : Nat → BitVec w) (t : Nat) : BitVec w :=
  if t < 16 then M t
  else s.smallSigma1 (W M (t - 2)) + W M (t - 7) + s.smallSigma0 (W M (t - 15)) + W M (t - 16)
termination_by t
decreasing_by all_goals omega

def round (W : Nat → BitVec w) : List (BitVec w) → Nat → List (BitVec w)
  | [a, b, c, d, e, f, g, h], t =>
    let T₁ := h + s.bigSigma1 e + Ch e f g + K w t + W t
    let T₂ := s.bigSigma0 a + Maj a b c
    [T₁ + T₂, a, b, c, d + T₁, e, f, g]
  | working, _ => working

def compute (block : Nat → List Bool) (H : List (BitVec w)) : List (BitVec w) :=
  List.zipWith (· + ·)
    ((List.range s.rounds).foldl (s.round (s.W fun t => wordOf w (block t))) H) H

def digest (message : List Bool) : List Bool :=
  ((iterate w s.compute (pad (16 * w) s.field (lengthBits s.field) message) s.H).flatMap
    bitsOf).take s.size

end SHA2

/-- SHA-256, from the square roots of the first eight primes. -/
def SHA256 : SHA2 32 where
  rounds := 64
  field := 64
  H := (primes.take 8).map (fraction 2 32)
  size := 256
  bigSigma0 x := x.rotateRight 2 ^^^ x.rotateRight 13 ^^^ x.rotateRight 22
  bigSigma1 x := x.rotateRight 6 ^^^ x.rotateRight 11 ^^^ x.rotateRight 25
  smallSigma0 x := x.rotateRight 7 ^^^ x.rotateRight 18 ^^^ (x >>> 3)
  smallSigma1 x := x.rotateRight 17 ^^^ x.rotateRight 19 ^^^ (x >>> 10)

/-- SHA-224 takes the second 32 bits of the ninth to the sixteenth. -/
def SHA224 : SHA2 32 :=
  { SHA256 with
    H := ((primes.drop 8).take 8).map fun p => (fraction 2 64 p).setWidth 32
    size := 224 }

def SHA512 : SHA2 64 where
  rounds := 80
  field := 128
  H := (primes.take 8).map (fraction 2 64)
  size := 512
  bigSigma0 x := x.rotateRight 28 ^^^ x.rotateRight 34 ^^^ x.rotateRight 39
  bigSigma1 x := x.rotateRight 14 ^^^ x.rotateRight 18 ^^^ x.rotateRight 41
  smallSigma0 x := x.rotateRight 1 ^^^ x.rotateRight 8 ^^^ (x >>> 7)
  smallSigma1 x := x.rotateRight 19 ^^^ x.rotateRight 61 ^^^ (x >>> 6)

def SHA384 : SHA2 64 :=
  { SHA512 with
    H := ((primes.drop 8).take 8).map (fraction 2 64)
    size := 384 }

/-- The digest of a message. -/
noncomputable def digest : Function → List Bool → List Bool
  | .md5 => MD5.digest
  | .sha1 => SHA1.digest
  | .sha224 => SHA224.digest
  | .sha256 => SHA256.digest
  | .sha384 => SHA384.digest
  | .sha512 => SHA512.digest
  | .maxEnum => fun _ => []

end Lhatove.Data.Standard
