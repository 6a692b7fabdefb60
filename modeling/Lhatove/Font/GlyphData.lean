import Lhatove.Lib.Bits

/-!
# Glyph data

`love::font::GlyphData`: the metrics of a glyph, and its pixels.
-/

namespace Lhatove.Font

/-- Why a call has no result: an exception, an `int` that overflows, an access where there is
no memory, or a loop that does not end. -/
inductive GlyphFault
  | exception (message : String)
  | overflow
  | outOfBounds
  | endless
  deriving DecidableEq

/-- `GlyphMetrics`, of `int`s -/
structure GlyphMetrics where
  height : Int := 0
  width : Int := 0
  advance : Int := 0
  bearingX : Int := 0
  bearingY : Int := 0
  deriving DecidableEq

/-- A glyph, with what is written to the memory that is allocated for it: pixels or bytes. -/
structure GlyphData (α : Type) where
  glyph : BitVec 32
  metrics : GlyphMetrics
  data : List α

/-- The pixels that the constructor allocates. It multiplies two `int`s. -/
def GlyphMetrics.allocate (metrics : GlyphMetrics) : Except GlyphFault Nat :=
  if 0 < metrics.width ∧ 0 < metrics.height then
    if 2 ^ 31 ≤ metrics.width * metrics.height then .error .overflow
    else .ok (metrics.width * metrics.height).toNat
  else .ok 0

theorem GlyphMetrics.allocate_natCast {metrics : GlyphMetrics} {width height : Nat}
    (hw : metrics.width = width) (hh : metrics.height = height) :
    metrics.allocate =
      if 2 ^ 31 ≤ width * height then .error .overflow else .ok (width * height) := by
  rw [allocate, hw, hh]
  by_cases hpos : 0 < width ∧ 0 < height
  · rw [if_pos (by omega)]
    by_cases hlarge : 2 ^ 31 ≤ width * height
    · rw [if_pos (by exact_mod_cast hlarge), if_pos hlarge]
    · rw [if_neg (by exact_mod_cast hlarge), if_neg hlarge, ← Nat.cast_mul, Int.toNat_natCast]
  · have hzero : width * height = 0 := by
      rcases Nat.eq_zero_or_pos width with hw | hw
      · rw [hw, Nat.zero_mul]
      · have : height = 0 := by omega
        rw [this, Nat.mul_zero]
    rw [if_neg (by omega), hzero, if_neg (by norm_num)]

end Lhatove.Font
