import Mathlib.Data.Rat.Cast.Order
import Lhatove.Common.FloatTypes
import Lhatove.Lib.Magnitudes

/-!
# Patterns of 32 bits and their numbers

- `asuint32` gives back the pattern `asfloat32` was given, whichever it is.
- Patterns are compared as integers with a sign (`key`): that is the order of the values
  they stand for, the infinities included.
-/

namespace Lhatove.FloatValue

/-- What is not a number. -/
def IsNaN : FloatValue → Prop
  | .num _ => False
  | .special bits => 0x7F800000 < bits.toNat % 2 ^ 31

def IsInfinite : FloatValue → Prop
  | .num _ => False
  | .special bits => bits.toNat % 2 ^ 31 = 0x7F800000

instance : DecidablePred IsNaN
  | .num _ => inferInstanceAs (Decidable False)
  | .special bits => inferInstanceAs (Decidable (0x7F800000 < bits.toNat % 2 ^ 31))

instance : DecidablePred IsInfinite
  | .num _ => inferInstanceAs (Decidable False)
  | .special bits => inferInstanceAs (Decidable (bits.toNat % 2 ^ 31 = 0x7F800000))

/-- The value that is compared: a number, or an infinity at either end. -/
def value : FloatValue → WithBot (WithTop ℚ)
  | .num q => ((q : WithTop ℚ) : WithBot (WithTop ℚ))
  | .special bits => if bits = 0x80000000 then ((0 : ℚ) : WithTop ℚ) else if bits.msb then ⊥ else ⊤

/-! ## The parts of a pattern -/

/-- The bits below the sign. -/
def unsignedBits (u : BitVec 32) : Nat := u.toNat % 2 ^ 31

theorem unsignedBits_lt (u : BitVec 32) : unsignedBits u < 2 ^ 31 :=
  Nat.mod_lt _ (by norm_num)

theorem toNat_eq (u : BitVec 32) :
    u.toNat = (if u.msb then 2 ^ 31 else 0) + unsignedBits u := by
  rw [BitVec.msb_eq_decide, unsignedBits]
  simp only [decide_eq_true_eq]
  split_ifs <;> omega

theorem toNat_exponent (u : BitVec 32) :
    (u >>> 23 &&& 0xFF).toNat = unsignedBits u / 2 ^ 23 := by
  have hmask : (u >>> 23 &&& 0xFF).toNat = u.toNat / 2 ^ 23 % 2 ^ 8 := by
    rw [BitVec.toNat_and, BitVec.toNat_ushiftRight, Nat.shiftRight_eq_div_pow]
    exact Nat.and_two_pow_sub_one_eq_mod _ 8
  rw [hmask, unsignedBits]
  omega

theorem toNat_mantissa (u : BitVec 32) :
    (u &&& 0x007FFFFF).toNat = unsignedBits u % 2 ^ 23 := by
  have hmask : (u &&& 0x007FFFFF).toNat = u.toNat % 2 ^ 23 := by
    rw [BitVec.toNat_and]
    exact Nat.and_two_pow_sub_one_eq_mod _ 23
  rw [hmask, unsignedBits]
  omega

/-! ## Numbers that have a pattern -/

theorem ofParts_eq (n : Nat) :
    ofParts (n / 2 ^ 23) (n % 2 ^ 23) = magnitude 23 127 n := by
  have hlt : n % 2 ^ 23 < 2 ^ 23 := Nat.mod_lt _ (by norm_num)
  rw [ofParts]
  split_ifs with hzero
  · have hn : n < 2 ^ 23 := by omega
    rw [magnitude_subnormal hn, Nat.mod_eq_of_lt hn]
    norm_num
  · have hn := @magnitude_normal 23 127 _ _ hzero hlt
    rw [Nat.div_add_mod'] at hn
    rw [hn]
    congr 2
    push_cast
    ring

theorem roundEven_natCast (n : Nat) : roundEven n = n := by
  simp [roundEven]

theorem nearestBits_magnitude {n : Nat} (hn : n < 0x7F800000) :
    nearestBits (magnitude 23 127 n) = n := by
  have hlt : n % 2 ^ 23 < 2 ^ 23 := Nat.mod_lt _ (by norm_num)
  by_cases hsub : n < 2 ^ 23
  · have hexponent : (if magnitude 23 127 n = 0 then (-126 : ℤ)
        else max (-126) (Int.log 2 (magnitude 23 127 n))) = -126 := by
      split_ifs with hzero
      · rfl
      · refine max_eq_left (Int.lt_add_one_iff.mp ?_)
        rw [← Int.lt_zpow_iff_log_lt one_lt_two
          (lt_of_le_of_ne (magnitude_nonneg _ _ _) (.symm hzero)), magnitude_subnormal hsub]
        have hcast : (n : ℚ) < 2 ^ 23 := by exact_mod_cast hsub
        calc (n : ℚ) * 2 ^ (1 - (127 : Nat) - (23 : Nat) : ℤ)
            < 2 ^ 23 * 2 ^ (1 - (127 : Nat) - (23 : Nat) : ℤ) :=
              mul_lt_mul_of_pos_right hcast (zpow_pos (by norm_num) _)
          _ = ((2 : Nat) : ℚ) ^ (-126 + 1 : ℤ) * 2⁻¹ := by norm_num
          _ ≤ _ := mul_le_of_le_one_right (by positivity) (by norm_num)
    rw [nearestBits, hexponent, magnitude_subnormal hsub]
    have hone : (n : ℚ) * 2 ^ (1 - (127 : Nat) - (23 : Nat) : ℤ) * 2 ^ (23 - -126 : ℤ) = n := by
      rw [mul_assoc, ← zpow_add₀ (by norm_num)]
      norm_num
    rw [hone, roundEven_natCast]
    norm_num
    omega
  · have hne : n / 2 ^ 23 ≠ 0 := by omega
    have hcast : ((n % 2 ^ 23 : Nat) : ℚ) < 2 ^ 23 := by exact_mod_cast hlt
    obtain ⟨exponent, hexponent⟩ : ∃ exponent, exponent = n / 2 ^ 23 := ⟨_, rfl⟩
    obtain ⟨mantissa, hmantissa⟩ : ∃ mantissa, mantissa = n % 2 ^ 23 := ⟨_, rfl⟩
    have hn' : n = exponent * 2 ^ 23 + mantissa := by omega
    rw [← hexponent] at hne
    rw [← hmantissa] at hcast hlt
    have hmagnitude : magnitude 23 127 n = (2 ^ 23 + mantissa) * 2 ^ ((exponent : ℤ) - 150) := by
      rw [hn', magnitude_normal hne hlt]
      congr 2
      push_cast
      ring
    have hpos : 0 < magnitude 23 127 n := by
      rw [hmagnitude]
      positivity
    have hlog : Int.log 2 (magnitude 23 127 n) = exponent - 127 := by
      refine le_antisymm (Int.lt_add_one_iff.mp ?_) ?_
      · rw [← Int.lt_zpow_iff_log_lt one_lt_two hpos, hmagnitude]
        calc (2 ^ 23 + (mantissa : ℚ)) * 2 ^ ((exponent : ℤ) - 150)
            < (2 ^ 23 + 2 ^ 23) * 2 ^ ((exponent : ℤ) - 150) := by gcongr
          _ = ((2 : Nat) : ℚ) ^ ((exponent : ℤ) - 127 + 1) := by
            rw [← two_mul, ← pow_succ', ← zpow_natCast, ← zpow_add₀ (by norm_num)]
            push_cast
            congr 1
            ring
      · rw [← Int.zpow_le_iff_le_log one_lt_two hpos, hmagnitude]
        calc ((2 : Nat) : ℚ) ^ ((exponent : ℤ) - 127)
            = 2 ^ 23 * 2 ^ ((exponent : ℤ) - 150) := by
              rw [← zpow_natCast (2 : ℚ) 23, ← zpow_add₀ (by norm_num)]
              push_cast
              congr 1
              ring
          _ ≤ (2 ^ 23 + (mantissa : ℚ)) * 2 ^ ((exponent : ℤ) - 150) := by
              gcongr
              exact le_add_of_nonneg_right (Nat.cast_nonneg _)
    have hone : magnitude 23 127 n * 2 ^ (23 - ((exponent : ℤ) - 127)) =
        ((2 ^ 23 + mantissa : Nat) : ℚ) := by
      rw [hmagnitude, mul_assoc, ← zpow_add₀ (by norm_num)]
      rw [show (exponent : ℤ) - 150 + (23 - (exponent - 127)) = 0 by ring, zpow_zero, mul_one,
        Nat.cast_add, Nat.cast_pow, Nat.cast_ofNat]
    rw [nearestBits, if_neg hpos.ne', hlog, max_eq_right (by omega)]
    rw [hone, roundEven_natCast]
    omega

/-! ## From a pattern and back -/

theorem asfloat32_eq (u : BitVec 32) :
    asfloat32 u =
      if u = 0x80000000 ∨ 0x7F800000 ≤ unsignedBits u then .special u
      else .num (if u.msb then -magnitude 23 127 (unsignedBits u)
        else magnitude 23 127 (unsignedBits u)) := by
  have hlt := unsignedBits_lt u
  have hexponent : unsignedBits u / 2 ^ 23 = 0xFF ↔ 0x7F800000 ≤ unsignedBits u := by omega
  rw [asfloat32, toNat_exponent, toNat_mantissa, ofParts_eq]
  simp only [hexponent]

theorem unsignedBits_ne_zero {u : BitVec 32} (hmsb : u.msb = true) (hu : u ≠ 0x80000000) :
    unsignedBits u ≠ 0 := by
  intro hzero
  apply hu
  apply BitVec.eq_of_toNat_eq
  rw [toNat_eq, hmsb, hzero]
  rfl

theorem asuint32_asfloat32 (u : BitVec 32) : asuint32 (asfloat32 u) = u := by
  rw [asfloat32_eq]
  split_ifs with hspecial hmsb
  · rfl
  · push Not at hspecial
    have hpos : 0 < magnitude 23 127 (unsignedBits u) := by
      rw [← magnitude_zero 23 127]
      exact magnitude_strictMono 23 127
        (Nat.pos_of_ne_zero (unsignedBits_ne_zero hmsb hspecial.1))
    apply BitVec.eq_of_toNat_eq
    rw [asuint32, abs_neg, abs_of_pos hpos, nearestBits_magnitude hspecial.2,
      if_pos (neg_lt_zero.mpr hpos), BitVec.toNat_ofNat, toNat_eq u, hmsb, if_pos rfl,
      Nat.mod_eq_of_lt (by have := unsignedBits_lt u; omega), Nat.add_comm]
  · push Not at hspecial
    have hnonneg := magnitude_nonneg 23 127 (unsignedBits u)
    apply BitVec.eq_of_toNat_eq
    rw [asuint32, abs_of_nonneg hnonneg, nearestBits_magnitude hspecial.2,
      if_neg hnonneg.not_gt, BitVec.toNat_ofNat, toNat_eq u, if_neg hmsb,
      Nat.mod_eq_of_lt (by have := unsignedBits_lt u; omega), Nat.add_comm]

theorem isNaN_asfloat32 (u : BitVec 32) :
    IsNaN (asfloat32 u) ↔ 0x7F800000 < unsignedBits u := by
  rw [asfloat32_eq]
  split_ifs with hspecial
  · rfl
  all_goals
    push Not at hspecial
    exact ⟨False.elim, fun h => absurd hspecial.2 (by omega)⟩

theorem isInfinite_asfloat32 (u : BitVec 32) :
    IsInfinite (asfloat32 u) ↔ unsignedBits u = 0x7F800000 := by
  rw [asfloat32_eq]
  split_ifs with hspecial
  · rfl
  all_goals
    push Not at hspecial
    exact ⟨False.elim, fun h => absurd hspecial.2 (by omega)⟩

/-! ## Order -/

/-- A pattern as an integer with a sign. -/
def key (u : BitVec 32) : ℤ := if u.msb then -unsignedBits u else unsignedBits u

def signedMagnitude (z : ℤ) : ℚ :=
  if z < 0 then -magnitude 23 127 z.natAbs else magnitude 23 127 z.natAbs

/-- The value of the patterns with a key. -/
def ofKey (z : ℤ) : WithBot (WithTop ℚ) :=
  if 0x7F800000 ≤ z then ⊤
  else if z ≤ -0x7F800000 then ⊥
  else ((signedMagnitude z : WithTop ℚ) : WithBot (WithTop ℚ))

theorem signedMagnitude_strictMono : StrictMono signedMagnitude := by
  intro z w hlt
  rw [signedMagnitude, signedMagnitude]
  split_ifs with hz hw hw
  · exact neg_lt_neg (magnitude_strictMono 23 127 (by omega))
  · have hpos : 0 < magnitude 23 127 z.natAbs := by
      rw [← magnitude_zero 23 127]
      exact magnitude_strictMono 23 127 (by omega)
    exact (neg_lt_zero.mpr hpos).trans_le (magnitude_nonneg _ _ _)
  · omega
  · exact magnitude_strictMono 23 127 (by omega)

theorem ofKey_lt {z w : ℤ} (hz : -0x7F800000 ≤ z) (hw : w ≤ 0x7F800000) (hlt : z < w) :
    ofKey z < ofKey w := by
  rw [ofKey, if_neg (by omega), ofKey]
  split_ifs with hbot htop htop hbot'
  · exact bot_lt_top
  · omega
  · exact WithBot.bot_lt_coe _
  · exact WithBot.coe_lt_coe.mpr (WithTop.coe_lt_top _)
  · omega
  · exact WithBot.coe_lt_coe.mpr (WithTop.coe_lt_coe.mpr (signedMagnitude_strictMono hlt))

theorem ofKey_le_iff {z w : ℤ} (hz : z.natAbs ≤ 0x7F800000) (hw : w.natAbs ≤ 0x7F800000) :
    ofKey z ≤ ofKey w ↔ z ≤ w := by
  constructor
  · intro hle
    by_contra hlt
    exact absurd (ofKey_lt (by omega) (by omega) (not_le.mp hlt)) (not_lt.mpr hle)
  · intro hle
    rcases hle.lt_or_eq with hlt | rfl
    · exact (ofKey_lt (by omega) (by omega) hlt).le
    · exact le_rfl

theorem natAbs_key (u : BitVec 32) : (key u).natAbs = unsignedBits u := by
  rw [key]
  split_ifs <;> omega

theorem value_asfloat32 {u : BitVec 32} (h : ¬IsNaN (asfloat32 u)) :
    value (asfloat32 u) = ofKey (key u) := by
  rw [isNaN_asfloat32, not_lt] at h
  rw [asfloat32_eq]
  split_ifs with hspecial hmsb
  · rw [value]
    by_cases hzero : u = 0x80000000
    · rw [if_pos hzero, hzero]
      have hkey : key 0x80000000 = 0 := by decide
      rw [hkey, ofKey, if_neg (by omega), if_neg (by omega), signedMagnitude, if_neg (by omega),
        Int.natAbs_zero, magnitude_zero]
    · have hinfinite := hspecial.resolve_left hzero
      rw [if_neg hzero, ofKey, key]
      split_ifs <;> first | rfl | omega
  · push Not at hspecial
    have hne := unsignedBits_ne_zero hmsb hspecial.1
    have hkey : key u = -unsignedBits u := if_pos hmsb
    rw [value, ofKey, if_neg (by omega), if_neg (by omega), signedMagnitude, if_pos (by omega),
      natAbs_key]
  · push Not at hspecial
    have hkey : key u = unsignedBits u := if_neg hmsb
    rw [value, ofKey, if_neg (by omega), if_neg (by omega), signedMagnitude, if_neg (by omega),
      natAbs_key]

end Lhatove.FloatValue
