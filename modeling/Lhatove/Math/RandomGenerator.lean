import Lhatove.Lib.Transition

/-!
# The random generator

`love::math::RandomGenerator`: an xorshift generator of 64 bits, seeded through
a hash, with a state that can be printed and read.

What a `double` is and what the functions of `<cmath>` compute is left open
(`Double`). Strings are lists of characters; C functions see them up to the
first null character.
-/

namespace Lhatove.Math

/-! ## Doubles -/

/-- `double`, with the operators and functions that the generator uses. -/
class Double (F : Type) extends Add F, Sub F, Mul F where
  /-- The double with these bits. -/
  ofBits : BitVec 64 → F
  sqrt : F → F
  log : F → F
  cos : F → F
  sin : F → F

namespace Double

variable {F : Type} [Double F]

/-- `std::numeric_limits<double>::infinity()` -/
def infinity : F := ofBits 0x7FF0000000000000

def one : F := ofBits 0x3FF0000000000000

def two : F := ofBits 0x4000000000000000

def minusTwo : F := ofBits 0xC000000000000000

/-- `LOVE_M_PI` -/
def pi : F := ofBits 0x400921FB54442D18

end Double

/-! ## Strings -/

/-- What a C function sees of a `std::string`. -/
def cStr (s : List Char) : List Char := s.takeWhile (· ≠ Char.ofNat 0)

def isSpace (c : Char) : Bool :=
  c = ' ' || (decide (9 ≤ c.toNat) && decide (c.toNat ≤ 13))

/-- The value of a hexadecimal digit. -/
def hexValue (c : Char) : Option Nat :=
  if 48 ≤ c.toNat ∧ c.toNat ≤ 57 then some (c.toNat - 48)
  else if 97 ≤ c.toNat ∧ c.toNat ≤ 102 then some (c.toNat - 87)
  else if 65 ≤ c.toNat ∧ c.toNat ≤ 70 then some (c.toNat - 55)
  else none

def isHex (c : Char) : Bool := (hexValue c).isSome

/-- The number that hexadecimal digits denote. -/
def hexNumber (digits : List Char) : Nat :=
  digits.foldl (fun n c => 16 * n + (hexValue c).getD 0) 0

/-- What of a string for `strtoull` comes behind a prefix `0x`, which only
counts with a digit after it. -/
def afterPrefix : List Char → List Char
  | '0' :: x :: d :: s => if (x = 'x' ∨ x = 'X') ∧ isHex d then d :: s else '0' :: x :: d :: s
  | s => s

/-- `strtoull` with base 16: the value, and what it stopped at. -/
def strtoull (s : List Char) : BitVec 64 × List Char :=
  let trimmed := s.dropWhile isSpace
  let negative := trimmed.head? = some '-'
  let signed := trimmed.head? = some '-' ∨ trimmed.head? = some '+'
  let digits := afterPrefix (if signed then trimmed.tail else trimmed)
  let number := hexNumber (digits.takeWhile isHex)
  if digits.takeWhile isHex = [] then (0, s)
  else if 2 ^ 64 ≤ number then (.allOnes 64, digits.dropWhile isHex)
  else (if negative then -.ofNat 64 number else .ofNat 64 number, digits.dropWhile isHex)

/-! ## The generator -/

/-- Thomas Wang's hash. -/
def wangHash64 (key : BitVec 64) : BitVec 64 :=
  let key := ~~~key + (key <<< 21)
  let key := key ^^^ (key >>> 24)
  let key := (key + (key <<< 3)) + (key <<< 8)
  let key := key ^^^ (key >>> 14)
  let key := (key + (key <<< 2)) + (key <<< 4)
  let key := key ^^^ (key >>> 28)
  key + (key <<< 31)

/-- The loop of `setSeed`, of at most `fuel` rounds. -/
def hashLoop : Nat → BitVec 64 → Option (BitVec 64)
  | 0, _ => none
  | fuel + 1, newseed =>
    if wangHash64 newseed = 0 then hashLoop fuel (wangHash64 newseed) else some (wangHash64 newseed)

structure RandomGenerator (F : Type) where
  seed : BitVec 64
  rngState : BitVec 64
  lastRandomnormal : F

/-- A call that draws. -/
inductive Draw (F : Type)
  | random
  | randomMax (max : F)
  | randomMinMax (min max : F)
  | randomNormal (stddev : F)

/-- What a draw does to the state. -/
def xorshift (state : BitVec 64) : BitVec 64 :=
  let state := state ^^^ (state >>> 12)
  let state := state ^^^ (state <<< 25)
  state ^^^ (state >>> 27)

namespace RandomGenerator

variable {F : Type}

def rand (g : RandomGenerator F) : BitVec 64 × RandomGenerator F :=
  (xorshift g.rngState * 2685821657736338717, { g with rngState := xorshift g.rngState })

variable [Double F]

/-- `random()`: the double of the upper 52 bits in [1, 2), less 1. -/
def random (g : RandomGenerator F) : F × RandomGenerator F :=
  (Double.ofBits ((0x3FF <<< 52) ||| (g.rand.1 >>> 12)) - Double.one, g.rand.2)

/-- The two numbers of the Box–Muller transform: the one that is kept and the
one that is returned. -/
def boxMuller (x y : F) : F × F :=
  let r := Double.sqrt (Double.minusTwo * Double.log (Double.one - x))
  let phi := Double.two * Double.pi * (Double.one - y)
  (r * Double.cos phi, r * Double.sin phi)

def randomNormal [DecidableEq F] (stddev : F) (g : RandomGenerator F) : F × RandomGenerator F :=
  if g.lastRandomnormal ≠ Double.infinity then
    (g.lastRandomnormal * stddev, { g with lastRandomnormal := Double.infinity })
  else
    let x := g.random
    let y := x.2.random
    ((boxMuller x.1 y.1).2 * stddev, { y.2 with lastRandomnormal := (boxMuller x.1 y.1).1 })

/-- The member functions that draw. -/
def draw [DecidableEq F] (d : Draw F) (g : RandomGenerator F) : F × RandomGenerator F :=
  match d with
  | .random => g.random
  | .randomMax max => (g.random.1 * max, g.random.2)
  | .randomMinMax min max => (g.random.1 * (max - min) + min, g.random.2)
  | .randomNormal stddev => g.randomNormal stddev

/-- `setSeed`; `none` while the loop has not ended after `fuel` rounds. -/
def setSeed (fuel : Nat) (newseed : BitVec 64) : Option (RandomGenerator F) :=
  (hashLoop fuel newseed).map fun state => ⟨newseed, state, Double.infinity⟩

/-- The constructor. -/
def new (fuel : Nat) : Option (RandomGenerator F) := setSeed fuel 0x0139408DCBBF7A44

/-- `setState`: the generator, or the text of the exception. -/
def setState (statestr : List Char) (g : RandomGenerator F) :
    Except (List Char) (RandomGenerator F) :=
  if ¬ ['0', 'x'] <+: statestr ∨ statestr.length < 3 then
    .error ("Invalid random state: ".toList ++ cStr statestr)
  else if (strtoull (cStr statestr)).2 ≠ [] then
    .error ("Invalid random state: ".toList ++ cStr statestr)
  else
    .ok { g with rngState := (strtoull (cStr statestr)).1, lastRandomnormal := Double.infinity }

/-- `getState`: 16 hexadecimal digits. -/
def getState (g : RandomGenerator F) : List Char :=
  ['0', 'x'] ++ (Nat.toDigits 16 g.rngState.toNat).leftpad 16 '0'

/-! ## Calls -/

variable [DecidableEq F]

/-- What draws give, one after the other. -/
def outputs : List (Draw F) → RandomGenerator F → List F
  | [], _ => []
  | d :: draws, g => (g.draw d).1 :: outputs draws (g.draw d).2

/-- The generator after some draws. -/
def after : List (Draw F) → RandomGenerator F → RandomGenerator F
  | [], g => g
  | d :: draws, g => after draws (g.draw d).2

end RandomGenerator

/-- A call that changes a generator. -/
inductive RngOp (F : Type)
  | setSeed (newseed : BitVec 64) (fuel : Nat)
  | setState (statestr : List Char)
  | draw (d : Draw F)

variable {F : Type} [Double F] [DecidableEq F]

/-- A call; one that throws leaves the generator as it is. -/
def rngStep (g : RandomGenerator F) : RngOp F → Option (RandomGenerator F)
  | .setSeed newseed fuel => RandomGenerator.setSeed fuel newseed
  | .setState statestr =>
    match g.setState statestr with
    | .ok g' => some g'
    | .error _ => some g
  | .draw d => some (g.draw d).2

/-- Calls of a generator, in any order. -/
def generators : System (RandomGenerator F) (RngOp F) :=
  System.ofStep (fun g => ∃ fuel, RandomGenerator.new fuel = some g) rngStep

end Lhatove.Math
