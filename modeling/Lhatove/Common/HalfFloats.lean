import Mathlib.Algebra.Order.Floor.Semifield
import Mathlib.Data.Nat.Bitwise
import Lhatove.Common.FloatBits

/-!
# The tables of numbers of 16 bits

What `float32to16` and `float16to32` do to the bits below the sign.

- Decoding gives the pattern of 32 bits for the same number, subnormal patterns included.
- Encoding cuts off the bits below the last place. Under the normal numbers this is a
  number of units of 2⁻²⁴, rounded down.
-/

namespace Lhatove

open FloatValue
open BitVec (eq_of_toNat_eq ofNat toNat_add toNat_and toNat_ofNat
  toNat_setWidth toNat_shiftLeft toNat_ushiftRight)

/-! ## Decoding -/

theorem and_bit_eq_zero_iff {m : BitVec 32} (hm : m.toNat < 2 ^ 24) :
    m &&& 0x00800000 = 0 ↔ m.toNat < 2 ^ 23 := by
  have hand : (m &&& 0x00800000).toNat = (m.toNat.testBit 23).toNat * 2 ^ 23 := by
    exact Nat.and_two_pow m.toNat 23
  rw [← BitVec.toNat_inj, hand, Nat.testBit_eq_decide_div_mod_eq]
  by_cases hbit : m.toNat / 2 ^ 23 % 2 = 1
  · simp only [hbit, decide_true, Bool.toNat_true]
    exact ⟨fun h => absurd h (by decide), fun h => by omega⟩
  · simp only [hbit, decide_false, Bool.toNat_false]
    exact ⟨fun _ => by omega, fun _ => by decide⟩

/-- The loop shifts the mantissa until its highest bit is where the exponent starts. -/
theorem normalize_eq {shift : Nat} : ∀ {fuel : Nat} {m e : BitVec 32}, shift ≤ fuel →
    2 ^ 23 ≤ m.toNat * 2 ^ shift → m.toNat * 2 ^ shift < 2 ^ 24 →
    normalize fuel m e = (m <<< shift, e - ofNat 32 (shift * 2 ^ 23)) := by
  induction shift with
  | zero =>
    intro fuel m e _ hle hlt
    rw [pow_zero, mul_one] at hle hlt
    have hresult : (m <<< 0, e - ofNat 32 (0 * 2 ^ 23)) = (m, e) := by simp
    rw [hresult]
    cases fuel with
    | zero => rfl
    | succ fuel =>
      rw [normalize, if_neg]
      rw [and_bit_eq_zero_iff hlt]
      omega
  | succ shift ih =>
    intro fuel m e hfuel hle hlt
    obtain ⟨fuel, rfl⟩ : ∃ n, fuel = n + 1 := ⟨fuel - 1, by omega⟩
    rw [pow_succ 2 shift] at hle hlt
    have hone : 0 < 2 ^ shift := Nat.two_pow_pos _
    have hsmall : m.toNat < 2 ^ 23 := by nlinarith
    have hdouble : (m <<< 1).toNat = m.toNat * 2 := by
      rw [toNat_shiftLeft, Nat.shiftLeft_eq]
      omega
    have hshift : m <<< 1 <<< shift = m <<< (shift + 1) := by
      rw [← BitVec.shiftLeft_add, Nat.add_comm]
    have hexponent : e - 0x00800000 - ofNat 32 (shift * 2 ^ 23) =
        e - ofNat 32 ((shift + 1) * 2 ^ 23) := by bv_omega
    rw [normalize, if_pos ((and_bit_eq_zero_iff (by omega)).mpr hsmall), ih (by omega), hshift,
      hexponent]
    all_goals
      rw [hdouble]
      linarith

theorem and_not_bit {m : BitVec 32} (hm : m.toNat < 2 ^ 24) :
    (m &&& ~~~0x00800000).toNat = m.toNat % 2 ^ 23 := by
  have hlow : m.toNat &&& (2 ^ 24 - 1) = m.toNat := Nat.and_two_pow_sub_one_of_lt_two_pow hm
  rw [toNat_and, ← hlow, Nat.and_assoc]
  exact (Nat.and_two_pow_sub_one_eq_mod m.toNat 23).trans (by rw [hlow])

theorem convertMantissa_toNat {i : Nat} (hne : i ≠ 0) (hi : i < 2 ^ 10) :
    (convertMantissa (ofNat 32 i)).toNat = widen 10 23 112 i := by
  have hlog : i.log2 < 10 := (Nat.log2_lt hne).mpr hi
  have hle : 2 ^ i.log2 ≤ i := Nat.log2_self_le hne
  have hlt : i < 2 ^ (i.log2 + 1) := Nat.lt_log2_self
  generalize hlog2 : i.log2 = log at *
  have hone : 2 ^ log * 2 ^ (23 - log) = 2 ^ 23 := by
    rw [← pow_add]
    congr 1
    omega
  have hpow : 2 ^ 13 * 2 ^ (10 - log) = 2 ^ (23 - log) := by
    rw [← pow_add]
    congr 1
    omega
  have hpos : 0 < 2 ^ (23 - log) := Nat.two_pow_pos _
  have hlower : 2 ^ 23 ≤ i * 2 ^ (23 - log) := hone ▸ Nat.mul_le_mul_right _ hle
  have hupper : i * 2 ^ (23 - log) < 2 ^ 24 := by
    calc i * 2 ^ (23 - log) < 2 ^ (log + 1) * 2 ^ (23 - log) :=
          Nat.mul_lt_mul_of_pos_right hlt hpos
      _ = 2 ^ 24 := by rw [pow_succ, Nat.mul_right_comm, hone, ← pow_succ]
  have hstart : (ofNat 32 i <<< 13).toNat = i * 2 ^ 13 := by
    rw [toNat_shiftLeft, Nat.shiftLeft_eq, toNat_ofNat]
    omega
  have hvalue : (ofNat 32 i <<< 13).toNat * 2 ^ (10 - log) = i * 2 ^ (23 - log) := by
    rw [hstart, Nat.mul_assoc, hpow]
  have hshifted : (ofNat 32 i <<< 13 <<< (10 - log)).toNat = i * 2 ^ (23 - log) := by
    rw [toNat_shiftLeft, Nat.shiftLeft_eq, hvalue]
    omega
  have hexponent : ((0 : BitVec 32) - ofNat 32 ((10 - log) * 2 ^ 23) + 0x38800000).toNat =
      2 ^ 23 * (103 + log) := by
    rw [toNat_add, BitVec.toNat_sub, toNat_ofNat]
    simp only [BitVec.reduceToNat]
    omega
  rw [convertMantissa, @normalize_eq (10 - log) 23 _ 0 (by omega) (hvalue ▸ hlower)
    (hvalue ▸ hupper)]
  rw [BitVec.toNat_or, and_not_bit (hshifted ▸ hupper), hshifted, hexponent, Nat.or_comm,
    ← Nat.two_pow_add_eq_or_of_lt (Nat.mod_lt _ (by norm_num)), widen, if_neg hne, if_pos hi,
    hlog2, Nat.sub_mul i, hone]
  omega

/-- The bits below the sign, of a number with five bits of exponent and `k` of mantissa
decoded. -/
def decodeBits (k m : Nat) : Nat :=
  if m < 31 * 2 ^ k then widen k 23 112 m else 255 * 2 ^ 23 + (m - 31 * 2 ^ k) * 2 ^ (23 - k)

theorem exponenttable_toNat :
    ∀ h < 64, (exponenttable (ofNat 32 h)).toNat =
      (if h < 32 then 0 else 2 ^ 31) + if h % 32 = 31 then 143 * 2 ^ 23 else h % 32 * 2 ^ 23 := by
  decide

theorem offsettable_eq :
    ∀ h < 64, offsettable (ofNat 32 h) = if h % 32 = 0 then 0 else 1024 := by
  decide

theorem mantissatable_offset {h l : Nat} (hh : h < 64) (hl : l < 2 ^ 10) :
    (mantissatable (offsettable (ofNat 32 h) + ofNat 32 l)).toNat =
      if h % 32 = 0 then widen 10 23 112 l else 112 * 2 ^ 23 + l * 2 ^ 13 := by
  rw [offsettable_eq h hh]
  split_ifs with hzero
  · have hzero_add : (0 + ofNat 32 l : BitVec 32) = ofNat 32 l := BitVec.zero_add _
    rw [hzero_add, mantissatable]
    by_cases hl0 : l = 0
    · rw [hl0]
      rfl
    · rw [if_neg, if_pos, convertMantissa_toNat hl0 hl]
      · bv_omega
      · bv_omega
  · have hsub : (1024 + ofNat 32 l - 1024 : BitVec 32) = ofNat 32 l := by bv_omega
    rw [mantissatable, if_neg, if_neg, hsub, toNat_add, toNat_shiftLeft,
      Nat.shiftLeft_eq, toNat_ofNat]
    · change (112 * 2 ^ 23 + l % 2 ^ 32 * 2 ^ 13 % 2 ^ 32) % 2 ^ 32 = _
      omega
    · bv_omega
    · bv_omega

theorem decodeBits_eq {m : Nat} (hm : m < 2 ^ 15) :
    decodeBits 10 m =
      (if m / 2 ^ 10 = 0 then widen 10 23 112 (m % 2 ^ 10)
        else 112 * 2 ^ 23 + m % 2 ^ 10 * 2 ^ 13) +
      if m / 2 ^ 10 = 31 then 143 * 2 ^ 23 else m / 2 ^ 10 * 2 ^ 23 := by
  rw [decodeBits]
  by_cases hsub : m / 2 ^ 10 = 0
  · have hlt : m < 2 ^ 10 := by omega
    rw [if_pos (by omega), if_pos hsub, if_neg (by omega), hsub, Nat.mod_eq_of_lt hlt]
    omega
  · rw [if_neg hsub]
    split_ifs with hfinite htop htop
    · omega
    · rw [widen, if_neg (by omega), if_neg (by omega)]
      omega
    · omega
    · omega

theorem decodeBits_lt {m : Nat} (hm : m < 2 ^ 15) : decodeBits 10 m < 2 ^ 31 := by
  rw [decodeBits]
  split_ifs with hfinite
  · have hle : widen 10 23 112 m ≤ widen 10 23 112 (31 * 2 ^ 10) :=
      (widen_strictMono (by norm_num) (by norm_num)).monotone hfinite.le
    exact hle.trans_lt (by norm_num [widen])
  · omega

theorem float16to32_eq (p : BitVec 16) :
    float16to32 p = asfloat32 (ofNat 32
      ((if p.msb then 2 ^ 31 else 0) + decodeBits 10 (p.toNat % 2 ^ 15))) := by
  have hhigh : p.setWidth 32 >>> 10 = ofNat 32 (p.toNat / 2 ^ 10) := by
    apply eq_of_toNat_eq
    rw [toNat_ushiftRight, toNat_setWidth, Nat.shiftRight_eq_div_pow,
      toNat_ofNat]
    omega
  have hlow : p.setWidth 32 &&& 0x3FF = ofNat 32 (p.toNat % 2 ^ 10) := by
    apply eq_of_toNat_eq
    have hmask : (p.setWidth 32).toNat &&& (2 ^ 10 - 1) = (p.setWidth 32).toNat % 2 ^ 10 :=
      Nat.and_two_pow_sub_one_eq_mod _ 10
    refine hmask.trans ?_
    rw [toNat_setWidth, toNat_ofNat]
    omega
  have hlt := decodeBits_lt (Nat.mod_lt p.toNat (by norm_num))
  have hsign : p.msb = decide (2 ^ 15 ≤ p.toNat) := BitVec.msb_eq_decide p
  rw [decodeBits_eq (Nat.mod_lt _ (by norm_num))] at hlt ⊢
  rw [float16to32, hhigh, hlow]
  congr 1
  apply eq_of_toNat_eq
  have hhalf : p.toNat % 2 ^ 15 / 2 ^ 10 = p.toNat / 2 ^ 10 % 32 := by omega
  have hrest : p.toNat % 2 ^ 15 % 2 ^ 10 = p.toNat % 2 ^ 10 := by omega
  rw [hhalf, hrest] at hlt ⊢
  rw [toNat_add, mantissatable_offset (by omega) (by omega),
    exponenttable_toNat _ (by omega), toNat_ofNat, hsign]
  congr 1
  by_cases hnegative : 2 ^ 15 ≤ p.toNat
  · rw [if_neg (show ¬p.toNat / 2 ^ 10 < 32 by omega), if_pos (decide_eq_true hnegative)]
    omega
  · rw [if_pos (show p.toNat / 2 ^ 10 < 32 by omega), decide_eq_false hnegative,
      if_neg Bool.false_ne_true]
    omega

/-! ## Encoding -/

/-- The bits below the sign, of a number of 32 bits encoded. -/
def encode16 (n : Nat) : Nat :=
  if n < 113 * 2 ^ 23 then ⌊magnitude 23 127 n * 2 ^ 24⌋₊
  else if n < 143 * 2 ^ 23 then n / 2 ^ 13 - 112 * 2 ^ 10
  else if n < 255 * 2 ^ 23 then 31 * 2 ^ 10
  else 31 * 2 ^ 10 + (n - 255 * 2 ^ 23) / 2 ^ 13

theorem basetable_toNat :
    ∀ i < 512, (basetable i).toNat =
      (if i < 256 then 0 else 2 ^ 15) +
        if i % 256 < 103 then 0
        else if i % 256 < 113 then 2 ^ (i % 256 - 103)
        else if i % 256 < 143 then (i % 256 - 112) * 2 ^ 10
        else 31 * 2 ^ 10 := by
  decide +kernel

theorem shifttable_eq :
    ∀ i < 512, shifttable i =
      if i % 256 < 103 then 24
      else if i % 256 < 113 then 126 - i % 256
      else if i % 256 < 143 then 13
      else if i % 256 < 255 then 24
      else 13 := by
  decide +kernel

theorem magnitude_leastNormal : magnitude 23 127 (113 * 2 ^ 23) * 2 ^ 24 = 2 ^ 10 := by
  rw [← add_zero (113 * 2 ^ 23), magnitude_normal (by norm_num) (by norm_num)]
  norm_num

theorem floor_subnormal_lt {n : Nat} (hn : n < 113 * 2 ^ 23) :
    ⌊magnitude 23 127 n * 2 ^ 24⌋₊ < 2 ^ 10 := by
  rw [Nat.floor_lt (mul_nonneg (magnitude_nonneg _ _ _) (by norm_num)), Nat.cast_pow,
    Nat.cast_ofNat, ← magnitude_leastNormal]
  exact mul_lt_mul_of_pos_right (magnitude_strictMono 23 127 hn) (by norm_num)

theorem floor_subnormal {n : Nat} (hn : n < 113 * 2 ^ 23) :
    ⌊magnitude 23 127 n * 2 ^ 24⌋₊ =
      if n / 2 ^ 23 < 103 then 0
      else 2 ^ (n / 2 ^ 23 - 103) + n % 2 ^ 23 / 2 ^ (126 - n / 2 ^ 23) := by
  split_ifs with htiny
  · -- less than one unit
    have hlt : magnitude 23 127 n < magnitude 23 127 (103 * 2 ^ 23 + 0) :=
      magnitude_strictMono 23 127 (by omega)
    rw [magnitude_normal (by norm_num) (by norm_num)] at hlt
    rw [Nat.floor_eq_zero]
    calc magnitude 23 127 n * 2 ^ 24
        < (2 ^ 23 + (0 : Nat)) * 2 ^ (((103 : Nat) : ℤ) - (127 : Nat) - (23 : Nat)) * 2 ^ 24 :=
          mul_lt_mul_of_pos_right hlt (by norm_num)
      _ = 1 := by norm_num
  · obtain ⟨drop, hdrop⟩ : ∃ drop, n / 2 ^ 23 = 126 - drop ∧ 13 < drop ∧ drop ≤ 23 :=
      ⟨126 - n / 2 ^ 23, by omega⟩
    obtain ⟨hexponent, hmore, hless⟩ := hdrop
    have hmantissa : n % 2 ^ 23 < 2 ^ 23 := Nat.mod_lt _ (by norm_num)
    have hn' : n = (126 - drop) * 2 ^ 23 + n % 2 ^ 23 := by omega
    have hscaled : magnitude 23 127 n * 2 ^ 24 =
        ((2 ^ 23 + n % 2 ^ 23 : Nat) : ℚ) / ((2 ^ drop : Nat) : ℚ) := by
      conv_lhs => rw [hn']
      rw [magnitude_normal (by omega) hmantissa, mul_assoc, ← zpow_natCast (2 : ℚ) 24,
        ← zpow_add₀ (by norm_num), div_eq_mul_inv]
      have hinv : (((2 ^ drop : Nat) : ℚ))⁻¹ = 2 ^ (-(drop : ℤ)) := by
        rw [zpow_neg, zpow_natCast]
        push_cast
        rfl
      rw [hinv]
      push_cast [show drop ≤ 126 by omega]
      congr 2
      ring
    have hpow : 2 ^ drop * 2 ^ (23 - drop) = 2 ^ 23 := by
      rw [← pow_add]
      congr 1
      omega
    rw [hscaled, Nat.floor_div_eq_div, hexponent, ← hpow, Nat.mul_add_div (Nat.two_pow_pos _),
      hpow, show 126 - drop - 103 = 23 - drop by omega, show 126 - (126 - drop) = drop by omega]

theorem float32to16_toNat (u : BitVec 32) :
    (float32to16 (asfloat32 u)).toNat =
      (if u.msb then 2 ^ 15 else 0) + encode16 (unsignedBits u) := by
  have hlt := unsignedBits_lt u
  have hindex : (u >>> 23 &&& 0x1FF).toNat =
      (if u.msb then 256 else 0) + unsignedBits u / 2 ^ 23 := by
    have hmask : (u >>> 23 &&& 0x1FF).toNat = u.toNat / 2 ^ 23 % 2 ^ 9 := by
      rw [toNat_and, toNat_ushiftRight, Nat.shiftRight_eq_div_pow]
      exact Nat.and_two_pow_sub_one_eq_mod _ 9
    rw [hmask, toNat_eq]
    split_ifs <;> omega
  rw [float32to16, asuint32_asfloat32, hindex, toNat_setWidth, toNat_add, toNat_setWidth,
    toNat_ushiftRight, toNat_mantissa, Nat.shiftRight_eq_div_pow]
  generalize unsignedBits u = n at *
  have hsign : ((if u.msb then 256 else 0) + n / 2 ^ 23) % 256 = n / 2 ^ 23 := by
    split_ifs <;> omega
  have hbound : (if u.msb then 256 else 0) + n / 2 ^ 23 < 512 := by
    split_ifs <;> omega
  have hnegative : ((if u.msb then 256 else 0) + n / 2 ^ 23 < 256) = (u.msb = false) := by
    cases u.msb <;> simp <;> omega
  rw [basetable_toNat _ hbound, shifttable_eq _ hbound, hsign]
  simp only [hnegative]
  have hflip : (if u.msb = false then 0 else 2 ^ 15) = if u.msb then 2 ^ 15 else 0 := by
    cases u.msb <;> rfl
  rw [hflip]
  have hhigh : (if u.msb then 2 ^ 15 else 0) ≤ 2 ^ 15 := by split_ifs <;> omega
  generalize (if u.msb then 2 ^ 15 else 0) = high at *
  rw [encode16]
  by_cases hsub : n < 113 * 2 ^ 23
  · have hsmall := floor_subnormal_lt hsub
    have hexponent : n / 2 ^ 23 < 113 := by omega
    rw [if_pos hsub, if_pos hexponent, if_pos hexponent]
    rw [floor_subnormal hsub] at hsmall ⊢
    by_cases htiny : n / 2 ^ 23 < 103
    · rw [if_pos htiny, if_pos htiny, if_pos htiny]
      omega
    · rw [if_neg htiny] at hsmall
      rw [if_neg htiny, if_neg htiny, if_neg htiny]
      generalize 2 ^ (n / 2 ^ 23 - 103) = leading at *
      generalize n % 2 ^ 23 / 2 ^ (126 - n / 2 ^ 23) = rest at *
      omega
  · have htiny : ¬n / 2 ^ 23 < 103 := by omega
    have hnormal : ¬n / 2 ^ 23 < 113 := by omega
    rw [if_neg hsub, if_neg htiny, if_neg hnormal, if_neg htiny, if_neg hnormal]
    split_ifs <;> omega

end Lhatove
