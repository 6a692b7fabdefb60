import Mathlib.Data.Int.Log
import Mathlib.Data.Rat.Floor
import Mathlib.Tactic

/-!
# Floating-point types

`love::float16to32`, `float32to16` and the same for numbers of 11 and of 10 bits.

- Numbers of type `float` are rational numbers, with exact arithmetic. They are rounded
  where their bits are asked for.
- What is no rational number is kept as its bits: the infinities, those that are no
  number, and minus zero.
-/

namespace Lhatove

/-- A number of type `float`. -/
inductive FloatValue
  | num (q : ℚ)
  | special (bits : BitVec 32)
  deriving DecidableEq

namespace FloatValue

/-- `std::numeric_limits<float>::infinity()` -/
def infinity : FloatValue := .special 0x7F800000

/-- `std::numeric_limits<float>::quiet_NaN()` -/
def quietNaN : FloatValue := .special 0x7FC00000

/-! ## Bits -/

/-- The integer nearest to a number, and the even one of two. -/
def roundEven (x : ℚ) : Nat :=
  let below := ⌊x⌋₊
  if x - below < 1 / 2 then below
  else if 1 / 2 < x - below then below + 1
  else below + below % 2

/-- The bits of the `float` nearest to a number that is not negative. -/
def nearestBits (x : ℚ) : Nat :=
  let exponent := if x = 0 then -126 else max (-126) (Int.log 2 x)
  min 0x7F800000 ((exponent + 126).toNat * 2 ^ 23 + roundEven (x * 2 ^ (23 - exponent)))

def asuint32 : FloatValue → BitVec 32
  | .num q => BitVec.ofNat 32 (nearestBits |q| + if q < 0 then 2 ^ 31 else 0)
  | .special bits => bits

/-- The number whose exponent and mantissa are given. -/
def ofParts (exponent mantissa : Nat) : ℚ :=
  if exponent = 0 then mantissa * 2 ^ (-149 : Int)
  else (2 ^ 23 + mantissa) * 2 ^ ((exponent : Int) - 150)

def asfloat32 (u : BitVec 32) : FloatValue :=
  let exponent := (u >>> 23 &&& 0xFF).toNat
  let x := ofParts exponent (u &&& 0x007FFFFF).toNat
  if u = 0x80000000 ∨ exponent = 0xFF then .special u
  else .num (if u.msb then -x else x)

/-- What `clamp01` and a cast to an integer see of a number. A cast of what is no number
is left open by the language; it gives 0 on x86-64 and on ARM64. -/
def toRat : FloatValue → ℚ
  | .num q => q
  | .special bits => if bits = 0x7F800000 then 1 else 0

end FloatValue

open FloatValue (asuint32 asfloat32)

/-! ## 16 bits -/

/-- The loop of `convertMantissa`, with a bound on how often it runs. -/
def normalize : Nat → BitVec 32 → BitVec 32 → BitVec 32 × BitVec 32
  | 0, m, e => (m, e)
  | fuel + 1, m, e =>
    if m &&& 0x00800000 = 0 then normalize fuel (m <<< 1) (e - 0x00800000) else (m, e)

def convertMantissa (i : BitVec 32) : BitVec 32 :=
  let (m, e) := normalize 23 (i <<< 13) 0
  m &&& ~~~0x00800000 ||| (e + 0x38800000)

def mantissatable (i : BitVec 32) : BitVec 32 :=
  if i = 0 then 0
  else if i < 1024 then convertMantissa i
  else 0x38000000 + ((i - 1024) <<< 13)

def exponenttable (i : BitVec 32) : BitVec 32 :=
  if i = 0 then 0
  else if i = 32 then 0x80000000
  else if i < 31 then i <<< 23
  else if i = 31 then 0x47800000
  else if i < 63 then 0x80000000 + ((i - 32) <<< 23)
  else 0xC7800000

def offsettable (i : BitVec 32) : BitVec 32 := if i = 0 ∨ i = 32 then 0 else 1024

def float16to32 (f : BitVec 16) : FloatValue :=
  let f := f.setWidth 32
  asfloat32 (mantissatable (offsettable (f >>> 10) + (f &&& 0x3FF)) + exponenttable (f >>> 10))

def basetable (i : Nat) : BitVec 16 :=
  let e : Int := (i % 256 : Nat) - 127
  let base : BitVec 16 :=
    if e < -24 then 0x0000
    else if e < -14 then 0x0400 >>> (-e - 14).toNat
    else if e ≤ 15 then BitVec.ofInt 16 (e + 15) <<< 10
    else 0x7C00
  if i < 256 then base else base ||| 0x8000

def shifttable (i : Nat) : Nat :=
  let e : Int := (i % 256 : Nat) - 127
  if e < -24 then 24
  else if e < -14 then (-e - 1).toNat
  else if e ≤ 15 then 13
  else if e < 128 then 24
  else 13

def float32to16 (f : FloatValue) : BitVec 16 :=
  let u := asuint32 f
  let i := (u >>> 23 &&& 0x1FF).toNat
  ((basetable i).setWidth 32 + (u &&& 0x007FFFFF) >>> shifttable i).setWidth 16

/-! ## 11 and 10 bits -/

/-- `float11to32` and `float10to32`: an exponent of five bits above the mantissa. -/
def unsignedTo32 (mantissaBits : Nat) (f : Nat) : FloatValue :=
  let exponent := f / 2 ^ mantissaBits
  let mantissa := f % 2 ^ mantissaBits
  if exponent = 0 then .num (2 ^ (-14 : Int) * (mantissa / 2 ^ mantissaBits))
  else if exponent < 31 then .num (2 ^ ((exponent : Int) - 15) * (1 + mantissa / 2 ^ mantissaBits))
  else if mantissa = 0 then .infinity
  else .quietNaN

def float11to32 : Nat → FloatValue := unsignedTo32 6

def float10to32 : Nat → FloatValue := unsignedTo32 5

/-- `float32to11` and `float32to10`: negative numbers go to 0. -/
def unsignedFrom32 (mantissaBits : Nat) (f : FloatValue) : Nat :=
  let u := asuint32 f
  let exponent : Int := (u >>> 23 &&& 0xFF).toNat - 127
  let mantissa := (u &&& 0x007FFFFF).toNat
  if u.msb then 0
  else if 15 < exponent then
    0x1F <<< mantissaBits ||| (if exponent = 128 then mantissa % 2 ^ mantissaBits else 0)
  else if exponent ≤ -15 then 0
  else (exponent + 15).toNat <<< mantissaBits ||| mantissa >>> (23 - mantissaBits)

def float32to11 : FloatValue → Nat := unsignedFrom32 6

def float32to10 : FloatValue → Nat := unsignedFrom32 5

end Lhatove
