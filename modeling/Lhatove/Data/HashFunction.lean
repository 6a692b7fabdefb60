import Lhatove.Lib.Bits

/-!
# Hash functions

`love::data::HashFunction`: MD5, SHA-1 and the SHA-2 family, each over the
whole message in memory. The message is copied into a buffer of 32 or 64 bit
words, with its padding, and worked through sixteen words at a time. The
machine is little-endian; the SHA functions swap what they read.
-/

namespace Lhatove.Data

/-- `HashFunction::Function`. -/
inductive Function
  | md5
  | sha1
  | sha224
  | sha256
  | sha384
  | sha512
  | maxEnum
  deriving DecidableEq

/-- `HashFunction::Value`: 64 bytes, of which `size` count. -/
structure Value where
  data : List Byte
  size : Nat

/-- The interface `HashFunction`; what it throws is an error. -/
structure HashFunction where
  isSupported : Function → Bool
  hash : Function → List Byte → Value → Except String Value

/-! ## Words -/

section Words

variable {w : Nat}

def leftrot (x : BitVec w) (amount : Nat) : BitVec w := (x <<< amount) ||| (x >>> (w - amount))

def rightrot (x : BitVec w) (amount : Nat) : BitVec w := (x >>> amount) ||| (x <<< (w - amount))

/-- The value extended to a multiple of `n`. -/
def extendMultiple (a n : BitVec 64) : BitVec 64 :=
  let r := a % n
  if r = 0 then a else a + (n - r)

/-- The bytes of a word from its top, each `(word >> shift) & 0xFF`. -/
def bytesDown (word : BitVec w) : List Byte :=
  (List.range (w / 8)).map fun k => ((word >>> (w - 8 - 8 * k)) &&& 0xFF).setWidth 8

/-- `words[j]` with its bytes `c[0]`, `c[1]`, … set from the top of `chunk[j]`. -/
def swapped (chunk : BitVec w) : BitVec w := loadLE w (bytesDown chunk)

/-- `chunk[j]` of the words from index `i` of the buffer. -/
def chunkWord (w : Nat) (padded : List Byte) (i j : Nat) : BitVec w :=
  loadLE w ((padded.drop (w / 8 * (i + j))).take (w / 8))

/-- The buffer: the message, one bit, zeros, and its length in bits in the last
eight bytes. `field` is how many bytes are kept for the length. -/
def padded (block field : BitVec 64) (lengthBytes : BitVec 64 → List Byte) (input : List Byte) :
    List Byte :=
  let length := BitVec.ofNat 64 input.length
  let paddedLength := extendMultiple (length + 1 + field) block
  let buffer := input ++ List.replicate (paddedLength - length).toNat 0
  let buffer := buffer.set length.toNat 0x80
  overwrite buffer (paddedLength.toNat - 8) (lengthBytes (length * 8))

/-- The indices at which the chunks of sixteen words start. -/
def chunkStarts (words : Nat) : List Nat := List.range' 0 ((words + 15) / 16) 16

/-- The extended words: sixteen of the chunk, the others each from those before. -/
def extendedWords (rounds : Nat) (extend : (Nat → BitVec w) → Nat → BitVec w)
    (first : List (BitVec w)) : List (BitVec w) :=
  (List.range' 16 (rounds - 16)).foldl
    (fun words j => words ++ [extend (fun index => words.getD index 0) j]) first

/-- The words of the result, from the top byte of each. -/
def Value.putWords (hashlength : Nat) (intermediate : List (BitVec w)) (output : Value) : Value where
  data := (List.range (hashlength / (w / 8))).foldl
    (fun data k => overwrite data (k * (w / 8)) (bytesDown (intermediate.getD k 0))) output.data
  size := hashlength

end Words

/-! ## MD5 -/

namespace MD5

def shifts : List Nat :=
  [ 7, 12, 17, 22, 7, 12, 17, 22, 7, 12, 17, 22, 7, 12, 17, 22,
    5, 9, 14, 20, 5, 9, 14, 20, 5, 9, 14, 20, 5, 9, 14, 20,
    4, 11, 16, 23, 4, 11, 16, 23, 4, 11, 16, 23, 4, 11, 16, 23,
    6, 10, 15, 21, 6, 10, 15, 21, 6, 10, 15, 21, 6, 10, 15, 21 ]

def constants : List (BitVec 32) :=
  [ 0xd76aa478, 0xe8c7b756, 0x242070db, 0xc1bdceee,
    0xf57c0faf, 0x4787c62a, 0xa8304613, 0xfd469501,
    0x698098d8, 0x8b44f7af, 0xffff5bb1, 0x895cd7be,
    0x6b901122, 0xfd987193, 0xa679438e, 0x49b40821,
    0xf61e2562, 0xc040b340, 0x265e5a51, 0xe9b6c7aa,
    0xd62f105d, 0x02441453, 0xd8a1e681, 0xe7d3fbc8,
    0x21e1cde6, 0xc33707d6, 0xf4d50d87, 0x455a14ed,
    0xa9e3e905, 0xfcefa3f8, 0x676f02d9, 0x8d2a4c8a,
    0xfffa3942, 0x8771f681, 0x6d9d6122, 0xfde5380c,
    0xa4beea44, 0x4bdecfa9, 0xf6bb4b60, 0xbebfbc70,
    0x289b7ec6, 0xeaa127fa, 0xd4ef3085, 0x04881d05,
    0xd9d4d039, 0xe6db99e5, 0x1fa27cf8, 0xc4ac5665,
    0xf4292244, 0x432aff97, 0xab9423a7, 0xfc93a039,
    0x655b59c3, 0x8f0ccc92, 0xffeff47d, 0x85845dd1,
    0x6fa87e4f, 0xfe2ce6e0, 0xa3014314, 0x4e0811a1,
    0xf7537e82, 0xbd3af235, 0x2ad7d2bb, 0xeb86d391 ]

structure State where
  A : BitVec 32
  B : BitVec 32
  C : BitVec 32
  D : BitVec 32

/-- One turn of the inner loop. -/
def round (chunk : Nat → BitVec 32) (s : State) (j : Nat) : State :=
  let F :=
    if j < 16 then (s.B &&& s.C) ||| (~~~s.B &&& s.D)
    else if j < 32 then (s.D &&& s.B) ||| (~~~s.D &&& s.C)
    else if j < 48 then s.B ^^^ s.C ^^^ s.D
    else s.C ^^^ (s.B ||| ~~~s.D)
  let g :=
    if j < 16 then j
    else if j < 32 then (5 * j + 1) % 16
    else if j < 48 then (3 * j + 5) % 16
    else (7 * j) % 16
  { A := s.D
    B := s.B + leftrot (s.A + F + constants.getD j 0 + chunk g) (shifts.getD j 0)
    C := s.B
    D := s.C }

/-- One chunk. -/
def process (padded : List Byte) (s : State) (i : Nat) : State :=
  let e := (List.range 64).foldl (round (chunkWord 32 padded i)) s
  ⟨s.A + e.A, s.B + e.B, s.C + e.C, s.D + e.D⟩

def initial : State := ⟨0x67452301, 0xefcdab89, 0x98badcfe, 0x10325476⟩

def hash (function : Function) (input : List Byte) (output : Value) : Except String Value :=
  if function ≠ .md5 then .error "Hash function not supported by MD5 implementation"
  else
    let padded := padded 64 8 (storeLE 8) input
    let s := (chunkStarts (padded.length / 4)).foldl (process padded) initial
    let data := overwrite output.data 0 (storeLE 4 s.A)
    let data := overwrite data 4 (storeLE 4 s.B)
    let data := overwrite data 8 (storeLE 4 s.C)
    let data := overwrite data 12 (storeLE 4 s.D)
    .ok ⟨data, 16⟩

end MD5

def md5 : HashFunction := ⟨fun function => function = .md5, MD5.hash⟩

/-! ## SHA-1 -/

namespace SHA1

def extend (words : Nat → BitVec 32) (j : Nat) : BitVec 32 :=
  leftrot (words (j - 3) ^^^ words (j - 8) ^^^ words (j - 14) ^^^ words (j - 16)) 1

structure State where
  A : BitVec 32
  B : BitVec 32
  C : BitVec 32
  D : BitVec 32
  E : BitVec 32

def round (words : List (BitVec 32)) (s : State) (j : Nat) : State :=
  let temp := leftrot s.A 5 + s.E + words.getD j 0
  let temp :=
    if j < 20 then temp + (0x5A827999 + ((s.B &&& s.C) ||| (~~~s.B &&& s.D)))
    else if j < 40 then temp + (0x6ED9EBA1 + (s.B ^^^ s.C ^^^ s.D))
    else if j < 60 then
      temp + (0x8F1BBCDC + ((s.B &&& s.C) ||| (s.B &&& s.D) ||| (s.C &&& s.D)))
    else temp + (0xCA62C1D6 + (s.B ^^^ s.C ^^^ s.D))
  { A := temp, B := s.A, C := leftrot s.B 30, D := s.C, E := s.D }

def process (padded : List Byte) (s : State) (i : Nat) : State :=
  let words := extendedWords 80 extend
    ((List.range 16).map fun j => swapped (chunkWord 32 padded i j))
  let e := (List.range 80).foldl (round words) s
  ⟨s.A + e.A, s.B + e.B, s.C + e.C, s.D + e.D, s.E + e.E⟩

def initial : State := ⟨0x67452301, 0xEFCDAB89, 0x98BADCFE, 0x10325476, 0xC3D2E1F0⟩

def hash (function : Function) (input : List Byte) (output : Value) : Except String Value :=
  if function ≠ .sha1 then .error "Hash function not supported by SHA1 implementation"
  else
    let padded := padded 64 8 bytesDown input
    let s := (chunkStarts (padded.length / 4)).foldl (process padded) initial
    .ok (output.putWords 20 [s.A, s.B, s.C, s.D, s.E])

end SHA1

def sha1 : HashFunction := ⟨fun function => function = .sha1, SHA1.hash⟩

/-! ## SHA-2 -/

/-- What the classes `SHA256` and `SHA512` differ in. -/
structure SHA2 (w : Nat) where
  isSupported : Function → Bool
  unsupported : String
  block : BitVec 64
  field : BitVec 64
  rounds : Nat
  initial : Function → List (BitVec w)
  constants : List (BitVec w)
  extend : (Nat → BitVec w) → Nat → BitVec w
  mixE : BitVec w → BitVec w
  mixA : BitVec w → BitVec w
  hashlength : Function → Nat

namespace SHA2

variable {w : Nat}

structure State (w : Nat) where
  A : BitVec w
  B : BitVec w
  C : BitVec w
  D : BitVec w
  E : BitVec w
  F : BitVec w
  G : BitVec w
  H : BitVec w

def State.words (s : State w) : List (BitVec w) := [s.A, s.B, s.C, s.D, s.E, s.F, s.G, s.H]

/-- Eight words of an array. -/
def State.ofWords (words : List (BitVec w)) : State w :=
  ⟨words.getD 0 0, words.getD 1 0, words.getD 2 0, words.getD 3 0, words.getD 4 0,
    words.getD 5 0, words.getD 6 0, words.getD 7 0⟩

def round (c : SHA2 w) (words : List (BitVec w)) (s : State w) (j : Nat) : State w :=
  let temp1 := s.H + c.constants.getD j 0 + words.getD j 0
  let temp1 := temp1 + c.mixE s.E
  let temp1 := temp1 + ((s.E &&& s.F) ^^^ (~~~s.E &&& s.G))
  let temp2 := c.mixA s.A
  let temp2 := temp2 + ((s.A &&& s.B) ^^^ (s.A &&& s.C) ^^^ (s.B &&& s.C))
  { A := temp1 + temp2, B := s.A, C := s.B, D := s.C
    E := s.D + temp1, F := s.E, G := s.F, H := s.G }

def process (c : SHA2 w) (padded : List Byte) (s : State w) (i : Nat) : State w :=
  let words := extendedWords c.rounds c.extend
    ((List.range 16).map fun j => swapped (chunkWord w padded i j))
  let e := (List.range c.rounds).foldl (c.round words) s
  ⟨s.A + e.A, s.B + e.B, s.C + e.C, s.D + e.D, s.E + e.E, s.F + e.F, s.G + e.G, s.H + e.H⟩

def hash (c : SHA2 w) (function : Function) (input : List Byte) (output : Value) :
    Except String Value :=
  if !c.isSupported function then .error c.unsupported
  else
    let padded := padded c.block c.field bytesDown input
    let s := (chunkStarts (padded.length / (w / 8))).foldl (c.process padded)
      (.ofWords (c.initial function))
    .ok (output.putWords (c.hashlength function) s.words)

end SHA2

namespace SHA256

def initial224 : List (BitVec 32) :=
  [ 0xc1059ed8, 0x367cd507, 0x3070dd17, 0xf70e5939,
    0xffc00b31, 0x68581511, 0x64f98fa7, 0xbefa4fa4 ]

def initial256 : List (BitVec 32) :=
  [ 0x6a09e667, 0xbb67ae85, 0x3c6ef372, 0xa54ff53a,
    0x510e527f, 0x9b05688c, 0x1f83d9ab, 0x5be0cd19 ]

def constants : List (BitVec 32) :=
  [ 0x428a2f98, 0x71374491, 0xb5c0fbcf, 0xe9b5dba5,
    0x3956c25b, 0x59f111f1, 0x923f82a4, 0xab1c5ed5,
    0xd807aa98, 0x12835b01, 0x243185be, 0x550c7dc3,
    0x72be5d74, 0x80deb1fe, 0x9bdc06a7, 0xc19bf174,
    0xe49b69c1, 0xefbe4786, 0x0fc19dc6, 0x240ca1cc,
    0x2de92c6f, 0x4a7484aa, 0x5cb0a9dc, 0x76f988da,
    0x983e5152, 0xa831c66d, 0xb00327c8, 0xbf597fc7,
    0xc6e00bf3, 0xd5a79147, 0x06ca6351, 0x14292967,
    0x27b70a85, 0x2e1b2138, 0x4d2c6dfc, 0x53380d13,
    0x650a7354, 0x766a0abb, 0x81c2c92e, 0x92722c85,
    0xa2bfe8a1, 0xa81a664b, 0xc24b8b70, 0xc76c51a3,
    0xd192e819, 0xd6990624, 0xf40e3585, 0x106aa070,
    0x19a4c116, 0x1e376c08, 0x2748774c, 0x34b0bcb5,
    0x391c0cb3, 0x4ed8aa4a, 0x5b9cca4f, 0x682e6ff3,
    0x748f82ee, 0x78a5636f, 0x84c87814, 0x8cc70208,
    0x90befffa, 0xa4506ceb, 0xbef9a3f7, 0xc67178f2 ]

def extend (words : Nat → BitVec 32) (j : Nat) : BitVec 32 :=
  let word := rightrot (words (j - 2)) 17 ^^^ rightrot (words (j - 2)) 19 ^^^ (words (j - 2) >>> 10)
  let word := word +
    (rightrot (words (j - 15)) 7 ^^^ rightrot (words (j - 15)) 18 ^^^ (words (j - 15) >>> 3))
  word + (words (j - 7) + words (j - 16))

end SHA256

def SHA256 : SHA2 32 where
  isSupported function := function = .sha224 ∨ function = .sha256
  unsupported := "Hash function not supported by SHA-224/SHA-256 implementation"
  block := 64
  field := 8
  rounds := 64
  initial function := if function = .sha224 then SHA256.initial224 else SHA256.initial256
  constants := SHA256.constants
  extend := SHA256.extend
  mixE E := rightrot E 6 ^^^ rightrot E 11 ^^^ rightrot E 25
  mixA A := rightrot A 2 ^^^ rightrot A 13 ^^^ rightrot A 22
  hashlength function := if function = .sha224 then 28 else 32

def sha256 : HashFunction := ⟨SHA256.isSupported, SHA256.hash⟩

namespace SHA512

def initial384 : List (BitVec 64) :=
  [ 0xcbbb9d5dc1059ed8, 0x629a292a367cd507, 0x9159015a3070dd17, 0x152fecd8f70e5939,
    0x67332667ffc00b31, 0x8eb44a8768581511, 0xdb0c2e0d64f98fa7, 0x47b5481dbefa4fa4 ]

def initial512 : List (BitVec 64) :=
  [ 0x6a09e667f3bcc908, 0xbb67ae8584caa73b, 0x3c6ef372fe94f82b, 0xa54ff53a5f1d36f1,
    0x510e527fade682d1, 0x9b05688c2b3e6c1f, 0x1f83d9abfb41bd6b, 0x5be0cd19137e2179 ]

def constants : List (BitVec 64) :=
  [ 0x428a2f98d728ae22, 0x7137449123ef65cd, 0xb5c0fbcfec4d3b2f, 0xe9b5dba58189dbbc,
    0x3956c25bf348b538, 0x59f111f1b605d019, 0x923f82a4af194f9b, 0xab1c5ed5da6d8118,
    0xd807aa98a3030242, 0x12835b0145706fbe, 0x243185be4ee4b28c, 0x550c7dc3d5ffb4e2,
    0x72be5d74f27b896f, 0x80deb1fe3b1696b1, 0x9bdc06a725c71235, 0xc19bf174cf692694,
    0xe49b69c19ef14ad2, 0xefbe4786384f25e3, 0x0fc19dc68b8cd5b5, 0x240ca1cc77ac9c65,
    0x2de92c6f592b0275, 0x4a7484aa6ea6e483, 0x5cb0a9dcbd41fbd4, 0x76f988da831153b5,
    0x983e5152ee66dfab, 0xa831c66d2db43210, 0xb00327c898fb213f, 0xbf597fc7beef0ee4,
    0xc6e00bf33da88fc2, 0xd5a79147930aa725, 0x06ca6351e003826f, 0x142929670a0e6e70,
    0x27b70a8546d22ffc, 0x2e1b21385c26c926, 0x4d2c6dfc5ac42aed, 0x53380d139d95b3df,
    0x650a73548baf63de, 0x766a0abb3c77b2a8, 0x81c2c92e47edaee6, 0x92722c851482353b,
    0xa2bfe8a14cf10364, 0xa81a664bbc423001, 0xc24b8b70d0f89791, 0xc76c51a30654be30,
    0xd192e819d6ef5218, 0xd69906245565a910, 0xf40e35855771202a, 0x106aa07032bbd1b8,
    0x19a4c116b8d2d0c8, 0x1e376c085141ab53, 0x2748774cdf8eeb99, 0x34b0bcb5e19b48a8,
    0x391c0cb3c5c95a63, 0x4ed8aa4ae3418acb, 0x5b9cca4f7763e373, 0x682e6ff3d6b2b8a3,
    0x748f82ee5defb2fc, 0x78a5636f43172f60, 0x84c87814a1f0ab72, 0x8cc702081a6439ec,
    0x90befffa23631e28, 0xa4506cebde82bde9, 0xbef9a3f7b2c67915, 0xc67178f2e372532b,
    0xca273eceea26619c, 0xd186b8c721c0c207, 0xeada7dd6cde0eb1e, 0xf57d4f7fee6ed178,
    0x06f067aa72176fba, 0x0a637dc5a2c898a6, 0x113f9804bef90dae, 0x1b710b35131c471b,
    0x28db77f523047d84, 0x32caab7b40c72493, 0x3c9ebe0a15c9bebc, 0x431d67c49c100d4c,
    0x4cc5d4becb3e42b6, 0x597f299cfc657e2a, 0x5fcb6fab3ad6faec, 0x6c44198c4a475817 ]

def extend (words : Nat → BitVec 64) (j : Nat) : BitVec 64 :=
  let word := words (j - 7) + words (j - 16)
  let word := word +
    (rightrot (words (j - 2)) 19 ^^^ rightrot (words (j - 2)) 61 ^^^ (words (j - 2) >>> 6))
  word + (rightrot (words (j - 15)) 1 ^^^ rightrot (words (j - 15)) 8 ^^^ (words (j - 15) >>> 7))

end SHA512

def SHA512 : SHA2 64 where
  isSupported function := function = .sha384 ∨ function = .sha512
  unsupported := "Hash function not supported by SHA-384/SHA-512 implementation"
  block := 128
  field := 16
  rounds := 80
  initial function := if function = .sha384 then SHA512.initial384 else SHA512.initial512
  constants := SHA512.constants
  extend := SHA512.extend
  mixE E := rightrot E 14 ^^^ rightrot E 18 ^^^ rightrot E 41
  mixA A := rightrot A 28 ^^^ rightrot A 34 ^^^ rightrot A 39
  hashlength function := if function = .sha384 then 48 else 64

def sha512 : HashFunction := ⟨SHA512.isSupported, SHA512.hash⟩

/-- `HashFunction::getHashFunction(function)`. -/
def getHashFunction : Function → Option HashFunction
  | .md5 => some md5
  | .sha1 => some sha1
  | .sha224 => some sha256
  | .sha256 => some sha256
  | .sha384 => some sha512
  | .sha512 => some sha512
  | .maxEnum => none

end Lhatove.Data
