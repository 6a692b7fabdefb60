import Lhatove.Common.HalfFloats

/-!
# Small floats keep the class and the order of numbers

The formats of 16, 11 and 10 bits, each with its encoder and its decoder.

- Infinities and finite numbers stay what they are, or go to the end of the format; and
  encoding never exchanges two values.
- What is no number is kept only where a bit of its mantissa is left after it is cut.
- A pattern of 11 or 10 bits whose exponent is 0 is decoded, but encoded as 0.
-/

namespace Lhatove

open FloatValue

/-- An encoder and the decoder beside it. -/
structure SmallFloat (π : Type) where
  encode : FloatValue → π
  decode : π → FloatValue
  /-- What the numbers below the format are raised to. -/
  least : WithBot (WithTop ℚ)
  IsPattern : π → Prop

def SmallFloat.float16 : SmallFloat (BitVec 16) := ⟨float32to16, float16to32, ⊥, fun _ => True⟩

/-- Negative values go to 0. -/
def SmallFloat.unsigned (mantissaBits : Nat) : SmallFloat Nat :=
  ⟨unsignedFrom32 mantissaBits, unsignedTo32 mantissaBits, ((0 : ℚ) : WithTop ℚ),
    (· < 2 ^ (mantissaBits + 5))⟩

def SmallFloat.float11 : SmallFloat Nat := .unsigned 6

def SmallFloat.float10 : SmallFloat Nat := .unsigned 5

namespace SmallFloat

variable {π : Type} (F : SmallFloat π)

/-- Encoded and decoded again. -/
def recode (f : FloatValue) : FloatValue := F.decode (F.encode f)

/-- Neither infinite nor not a number. -/
def Finite (f : FloatValue) : Prop := ¬f.IsNaN ∧ ¬f.IsInfinite

/-- A number is encoded as an infinity that is at its side of every finite pattern. -/
def Saturates (f : FloatValue) : Prop :=
  ((F.recode f).value = ⊤ ∧
    ∀ p, F.IsPattern p → Finite (F.decode p) → (F.decode p).value < f.value) ∨
  ((F.recode f).value = ⊥ ∧
    ∀ p, F.IsPattern p → Finite (F.decode p) → f.value < (F.decode p).value)

/-- Encoding keeps the class of a number. -/
structure KeepsClass (f : FloatValue) : Prop where
  nan : f.IsNaN → (F.recode f).IsNaN
  infinite : f.IsInfinite → (F.recode f).value = max F.least f.value
  finite : Finite f → Finite (F.recode f) ∨ F.Saturates f

/-- What is asked of a format at two patterns of 32 bits and one of its own. -/
structure Sound (u v : BitVec 32) (p : π) : Prop where
  keepsClass : F.KeepsClass (asfloat32 u)
  mono : ¬(asfloat32 u).IsNaN → ¬(asfloat32 v).IsNaN →
    (asfloat32 u).value ≤ (asfloat32 v).value →
    (F.recode (asfloat32 u)).value ≤ (F.recode (asfloat32 v)).value
  inverse : F.IsPattern p → ¬(F.decode p).IsNaN → F.encode (F.decode p) = p

/-! ## Formats that follow a function of the keys -/

/-- What a format does to the keys of patterns that are numbers. -/
structure Follows (step : ℤ → ℤ) : Prop where
  recode : ∀ u, ¬(asfloat32 u).IsNaN →
    ∃ u', F.recode (asfloat32 u) = asfloat32 u' ∧ key u' = step (key u)
  range : ∀ z, z.natAbs ≤ 0x7F800000 → (step z).natAbs ≤ 0x7F800000
  mono : ∀ z w, -0x7F800000 ≤ z → z ≤ w → w ≤ 0x7F800000 → step z ≤ step w
  least : ofKey (step (-0x7F800000)) = F.least
  greatest : step 0x7F800000 = 0x7F800000
  overflow : ∀ z, step z = 0x7F800000 → 143 * 2 ^ 23 ≤ z
  underflow : ∀ z, step z = -0x7F800000 → z ≤ -(143 * 2 ^ 23)
  decode : ∀ p, F.IsPattern p → Finite (F.decode p) →
    ∃ u, F.decode p = asfloat32 u ∧ (key u).natAbs < 143 * 2 ^ 23

variable {F} {step : ℤ → ℤ} {u v : BitVec 32}

theorem natAbs_key_le (h : ¬(asfloat32 u).IsNaN) : (key u).natAbs ≤ 0x7F800000 := by
  rw [natAbs_key]
  exact not_lt.mp ((isNaN_asfloat32 u).not.mp h)

theorem Follows.not_isNaN (h : F.Follows step) (hu : ¬(asfloat32 u).IsNaN) :
    ¬(F.recode (asfloat32 u)).IsNaN := by
  obtain ⟨u', hrecode, hkey⟩ := h.recode u hu
  rw [hrecode, isNaN_asfloat32, ← natAbs_key, hkey, not_lt]
  exact h.range _ (natAbs_key_le hu)

theorem Follows.value (h : F.Follows step) (hu : ¬(asfloat32 u).IsNaN) :
    (F.recode (asfloat32 u)).value = ofKey (step (key u)) := by
  have hnan := h.not_isNaN hu
  obtain ⟨u', hrecode, hkey⟩ := h.recode u hu
  rw [hrecode] at hnan ⊢
  rw [value_asfloat32 hnan, hkey]

theorem Follows.value_mono (h : F.Follows step) (hu : ¬(asfloat32 u).IsNaN)
    (hv : ¬(asfloat32 v).IsNaN) (hle : (asfloat32 u).value ≤ (asfloat32 v).value) :
    (F.recode (asfloat32 u)).value ≤ (F.recode (asfloat32 v)).value := by
  have hukey := natAbs_key_le hu
  have hvkey := natAbs_key_le hv
  rw [value_asfloat32 hu, value_asfloat32 hv, ofKey_le_iff hukey hvkey] at hle
  rw [h.value hu, h.value hv, ofKey_le_iff (h.range _ hukey) (h.range _ hvkey)]
  exact h.mono _ _ (by omega) hle (by omega)

theorem Follows.infinite (h : F.Follows step) (hu : (asfloat32 u).IsInfinite) :
    (F.recode (asfloat32 u)).value = max F.least (asfloat32 u).value := by
  have hbits := (isInfinite_asfloat32 u).mp hu
  have hnan : ¬(asfloat32 u).IsNaN := by
    rw [isNaN_asfloat32]
    omega
  have habs := natAbs_key u
  rw [h.value hnan, value_asfloat32 hnan]
  rcases (by omega : key u = 0x7F800000 ∨ key u = -0x7F800000) with hkey | hkey
  · rw [hkey, h.greatest]
    exact (max_eq_right le_top).symm
  · rw [hkey, h.least]
    exact (max_eq_left bot_le).symm

theorem Follows.finite (h : F.Follows step) (hu : Finite (asfloat32 u)) :
    Finite (F.recode (asfloat32 u)) ∨ F.Saturates (asfloat32 u) := by
  obtain ⟨hnan, hinfinite⟩ := hu
  have hkeyle := natAbs_key_le hnan
  obtain ⟨u', hrecode, hkey⟩ := h.recode u hnan
  have hless : ∀ p, F.IsPattern p → Finite (F.decode p) → ∃ z : ℤ,
      z.natAbs < 143 * 2 ^ 23 ∧ (F.decode p).value = ofKey z := by
    intro p hpattern hfinite
    obtain ⟨v, hdecode, hbound⟩ := h.decode p hpattern hfinite
    rw [hdecode] at hfinite ⊢
    exact ⟨key v, hbound, value_asfloat32 hfinite.1⟩
  by_cases htop : step (key u) = 0x7F800000
  · refine .inr (.inl ⟨?_, ?_⟩)
    · rw [h.value hnan, htop]
      rfl
    · intro p hpattern hfinite
      obtain ⟨z, hz, hvalue⟩ := hless p hpattern hfinite
      have hover := h.overflow _ htop
      rw [hvalue, value_asfloat32 hnan]
      exact ofKey_lt (by omega) (by omega) (by omega)
  by_cases hbot : step (key u) = -0x7F800000
  · refine .inr (.inr ⟨?_, ?_⟩)
    · rw [h.value hnan, hbot]
      rfl
    · intro p hpattern hfinite
      obtain ⟨z, hz, hvalue⟩ := hless p hpattern hfinite
      have hunder := h.underflow _ hbot
      rw [hvalue, value_asfloat32 hnan]
      exact ofKey_lt (by omega) (by omega) (by omega)
  · refine .inl ⟨h.not_isNaN hnan, ?_⟩
    rw [hrecode, isInfinite_asfloat32, ← natAbs_key, hkey]
    omega

/-- Two conditions are left: at what is no number, and at the format's own pattern. -/
theorem Follows.sound_iff (h : F.Follows step) (p : π) :
    F.Sound u v p ↔
      ((asfloat32 u).IsNaN → (F.recode (asfloat32 u)).IsNaN) ∧
        (F.IsPattern p → ¬(F.decode p).IsNaN → F.encode (F.decode p) = p) := by
  constructor
  · intro hsound
    exact ⟨hsound.keepsClass.nan, hsound.inverse⟩
  · rintro ⟨hnan, hinverse⟩
    exact ⟨⟨hnan, h.infinite, h.finite⟩, fun hu hv hle => h.value_mono hu hv hle, hinverse⟩

/-! ## Bits below the sign -/

/-- What is asked of an encoder of the bits below the sign, with `k` bits of mantissa. -/
structure Cuts (k : Nat) (enc : Nat → Nat) : Prop where
  fits : k ≤ 23
  mono : ∀ n m, n ≤ m → m ≤ 0x7F800000 → enc n ≤ enc m
  zero : enc 0 = 0
  infinity : enc 0x7F800000 = 31 * 2 ^ k
  less : ∀ n, n < 143 * 2 ^ 23 → enc n < 31 * 2 ^ k

theorem decodeBits_infinity (k : Nat) : decodeBits k (31 * 2 ^ k) = 0x7F800000 := by
  rw [decodeBits, if_neg (lt_irrefl _), Nat.sub_self]
  norm_num

theorem decodeBits_finite {k m : Nat} (hk : k ≤ 23) (hm : m < 31 * 2 ^ k) :
    decodeBits k m < 143 * 2 ^ 23 := by
  have hpow : 2 ^ k * 2 ^ (23 - k) = 2 ^ 23 := by
    rw [← pow_add]
    congr 1
    omega
  have htop : widen k 23 112 (31 * 2 ^ k) = 143 * 2 ^ 23 := by
    rw [widen_normal (by omega), Nat.mul_assoc, hpow]
    norm_num
  rw [decodeBits, if_pos hm, ← htop]
  exact widen_strictMono hk (by omega) hm

theorem decodeBits_mono {k n m : Nat} (hk : k ≤ 23) (hle : n ≤ m) (hm : m ≤ 31 * 2 ^ k) :
    decodeBits k n ≤ decodeBits k m := by
  rcases hm.lt_or_eq with hlt | rfl
  · rw [decodeBits, if_pos (by omega), decodeBits, if_pos hlt]
    exact (widen_strictMono hk (by omega)).monotone hle
  · rcases hle.lt_or_eq with hlt | rfl
    · rw [decodeBits_infinity]
      exact (decodeBits_finite hk hlt).le.trans (by norm_num)
    · exact le_rfl

variable {k : Nat} {enc : Nat → Nat}

theorem Cuts.le (h : Cuts k enc) {n : Nat} (hn : n ≤ 0x7F800000) : enc n ≤ 31 * 2 ^ k :=
  h.infinity ▸ h.mono n _ hn le_rfl

theorem Cuts.decode_mono (h : Cuts k enc) {n m : Nat} (hle : n ≤ m) (hm : m ≤ 0x7F800000) :
    decodeBits k (enc n) ≤ decodeBits k (enc m) :=
  decodeBits_mono h.fits (h.mono n m hle hm) (h.le hm)

theorem Cuts.decode_infinity (h : Cuts k enc) : decodeBits k (enc 0x7F800000) = 0x7F800000 := by
  rw [h.infinity, decodeBits_infinity]

theorem Cuts.decode_le (h : Cuts k enc) {n : Nat} (hn : n ≤ 0x7F800000) :
    decodeBits k (enc n) ≤ 0x7F800000 :=
  h.decode_infinity ▸ h.decode_mono hn le_rfl

theorem Cuts.decode_zero (h : Cuts k enc) : decodeBits k (enc 0) = 0 := by
  rw [h.zero, decodeBits, if_pos (by have := Nat.two_pow_pos k; omega)]
  rfl

theorem Cuts.overflow (h : Cuts k enc) {n : Nat} (hn : decodeBits k (enc n) = 0x7F800000) :
    143 * 2 ^ 23 ≤ n := by
  by_contra hlt
  have hfinite := decodeBits_finite h.fits (h.less n (not_le.mp hlt))
  omega

/-- The pattern with a sign and the bits below it. -/
def withSign (negative : Bool) (n : Nat) : BitVec 32 :=
  BitVec.ofNat 32 ((if negative then 2 ^ 31 else 0) + n)

theorem toNat_withSign {negative : Bool} {n : Nat} (hn : n < 2 ^ 31) :
    (withSign negative n).toNat = (if negative then 2 ^ 31 else 0) + n := by
  rw [withSign, BitVec.toNat_ofNat]
  split_ifs <;> omega

theorem unsignedBits_withSign {negative : Bool} {n : Nat} (hn : n < 2 ^ 31) :
    unsignedBits (withSign negative n) = n := by
  rw [unsignedBits, toNat_withSign hn]
  split_ifs <;> omega

theorem msb_withSign {negative : Bool} {n : Nat} (hn : n < 2 ^ 31) :
    (withSign negative n).msb = negative := by
  rw [BitVec.msb_eq_decide, toNat_withSign hn]
  cases negative with
  | false => exact decide_eq_false (by simp; omega)
  | true => exact decide_eq_true (by simp)

theorem key_withSign {negative : Bool} {n : Nat} (hn : n < 2 ^ 31) :
    key (withSign negative n) = if negative then -(n : ℤ) else n := by
  rw [key, unsignedBits_withSign hn, msb_withSign hn]

def signedStep (k : Nat) (enc : Nat → Nat) (z : ℤ) : ℤ :=
  if z < 0 then -(decodeBits k (enc z.natAbs) : ℤ) else decodeBits k (enc z.natAbs)

def unsignedStep (k : Nat) (enc : Nat → Nat) (z : ℤ) : ℤ :=
  if z < 0 then 0 else decodeBits k (enc z.natAbs)

/-- Keys that are not negative are encoded as they are, the magnitudes of others are lowered
by `low`. -/
theorem Cuts.follows (h : Cuts k enc) {low : Nat → Nat} (hmono : Monotone low)
    (hlow : ∀ n, low n ≤ n)
    (hstep : ∀ z, step z = if z < 0 then -(low (decodeBits k (enc z.natAbs)) : ℤ) else
      decodeBits k (enc z.natAbs))
    (hleast : ofKey (-(low 0x7F800000 : ℤ)) = F.least)
    (hrecode : ∀ u, unsignedBits u ≤ 0x7F800000 → ∃ u', F.recode (asfloat32 u) = asfloat32 u' ∧
      key u' = if u.msb then -(low (decodeBits k (enc (unsignedBits u))) : ℤ) else
        decodeBits k (enc (unsignedBits u)))
    (hdecode : ∀ p, F.IsPattern p → Finite (F.decode p) →
      ∃ u, F.decode p = asfloat32 u ∧ (key u).natAbs < 143 * 2 ^ 23) :
    F.Follows step where
  recode := by
    intro u hu
    have hbits : unsignedBits u ≤ 0x7F800000 := not_lt.mp ((isNaN_asfloat32 u).not.mp hu)
    obtain ⟨u', heq, hkey⟩ := hrecode u hbits
    refine ⟨u', heq, ?_⟩
    rw [hkey, hstep, natAbs_key, key]
    cases hmsb : u.msb with
    | false => rw [if_neg Bool.false_ne_true, if_neg Bool.false_ne_true, if_neg (by omega)]
    | true =>
      rw [if_pos rfl, if_pos rfl]
      -- minus zero has the key of zero
      by_cases hzero : unsignedBits u = 0
      · have hlow := hlow 0
        rw [hzero, if_neg (by omega), h.decode_zero]
        omega
      · rw [if_pos (by omega)]
  range := by
    intro z hz
    have hle := h.decode_le hz
    have hlow := hlow (decodeBits k (enc z.natAbs))
    rw [hstep]
    split_ifs <;> omega
  mono := by
    intro z w hz hle hw
    rw [hstep, hstep]
    split_ifs with hneg hneg' hneg'
    · have := hmono (h.decode_mono (show w.natAbs ≤ z.natAbs by omega) (by omega))
      omega
    · omega
    · omega
    · have := h.decode_mono (show z.natAbs ≤ w.natAbs by omega) (by omega)
      omega
  least := by
    rw [hstep, if_pos (by omega), Int.natAbs_neg, show Int.natAbs 0x7F800000 = 0x7F800000 from rfl,
      h.decode_infinity, hleast]
  greatest := by
    rw [hstep, if_neg (by omega), show Int.natAbs 0x7F800000 = 0x7F800000 from rfl,
      h.decode_infinity]
    rfl
  overflow := by
    intro z hz
    rw [hstep] at hz
    split_ifs at hz with hneg
    · omega
    · have := @Cuts.overflow k enc h z.natAbs (by omega)
      omega
  underflow := by
    intro z hz
    rw [hstep] at hz
    split_ifs at hz
    · have hlow := hlow (decodeBits k (enc z.natAbs))
      by_cases hle : z.natAbs ≤ 0x7F800000
      · have := h.decode_le hle
        have := @Cuts.overflow k enc h z.natAbs (by omega)
        omega
      · omega
  decode := hdecode

/-! ## 16 bits -/

theorem encode16_cuts : Cuts 10 encode16 where
  fits := by norm_num
  mono := by
    intro n m hle hm
    rw [encode16, encode16]
    by_cases hn : n < 113 * 2 ^ 23
    · rw [if_pos hn]
      by_cases hm' : m < 113 * 2 ^ 23
      · rw [if_pos hm']
        exact Nat.floor_mono (mul_le_mul_of_nonneg_right
          ((magnitude_strictMono 23 127).monotone hle) (by norm_num))
      · have := floor_subnormal_lt hn
        rw [if_neg hm']
        split_ifs <;> omega
    · have hm' : ¬m < 113 * 2 ^ 23 := by omega
      rw [if_neg hn, if_neg hm']
      split_ifs <;> omega
  zero := by
    rw [encode16, if_pos (by norm_num), magnitude_zero, zero_mul, Nat.floor_zero]
  infinity := by
    rw [encode16, if_neg (by norm_num), if_neg (by norm_num), if_neg (by norm_num)]
    norm_num
  less := by
    intro n hn
    rw [encode16]
    by_cases hsub : n < 113 * 2 ^ 23
    · have := floor_subnormal_lt hsub
      rw [if_pos hsub]
      omega
    · rw [if_neg hsub, if_pos hn]
      omega

theorem encode16_lt {n : Nat} (hn : n < 2 ^ 31) : encode16 n < 2 ^ 15 := by
  by_cases hfinite : n < 143 * 2 ^ 23
  · exact (encode16_cuts.less n hfinite).trans (by norm_num)
  · rw [encode16, if_neg (by omega), if_neg hfinite]
    split_ifs <;> omega

/-- Decoded patterns are encoded as what they were, also where they are subnormal. -/
theorem encode16_decodeBits {m : Nat} (hm : m ≤ 31 * 2 ^ 10) : encode16 (decodeBits 10 m) = m := by
  by_cases hsub : m < 2 ^ 10
  · have hmagnitude : magnitude 23 127 (widen 10 23 112 m) = magnitude 10 15 m :=
      @magnitude_widen 10 15 23 112 (by norm_num) (by norm_num) m
    have hless : widen 10 23 112 m < 113 * 2 ^ 23 := by
      have := @widen_strictMono 10 23 112 (by norm_num) (by norm_num) m (2 ^ 10) hsub
      rw [widen_normal le_rfl] at this
      omega
    rw [decodeBits, if_pos (by omega), encode16, if_pos hless, hmagnitude, magnitude_subnormal hsub,
      mul_assoc]
    norm_num
  · rw [decodeBits, widen_normal (by omega)]
    split_ifs
    · rw [encode16, if_neg (by omega), if_pos (by omega)]
      omega
    · rw [encode16, if_neg (by omega), if_neg (by omega), if_neg (by omega)]
      omega

theorem float16_recode (u : BitVec 32) :
    float16.recode (asfloat32 u) =
      asfloat32 (withSign u.msb (decodeBits 10 (encode16 (unsignedBits u)))) := by
  have hlt := encode16_lt (unsignedBits_lt u)
  have htoNat := float32to16_toNat u
  have hmsb : (float32to16 (asfloat32 u)).msb = u.msb := by
    rw [BitVec.msb_eq_decide, htoNat]
    cases u.msb <;> simp
    all_goals omega
  have hlow : (float32to16 (asfloat32 u)).toNat % 2 ^ 15 = encode16 (unsignedBits u) := by
    rw [htoNat]
    split_ifs <;> omega
  show float16to32 (float32to16 (asfloat32 u)) = _
  rw [float16to32_eq, hmsb, hlow]
  rfl

theorem float16_follows : float16.Follows (signedStep 10 encode16) := by
  refine encode16_cuts.follows monotone_id (fun _ => le_rfl) (fun _ => rfl) rfl
    (fun u hbits => ⟨_, float16_recode u, ?_⟩) fun p _ hfinite => ?_
  · have hle := encode16_cuts.decode_le hbits
    exact key_withSign (by omega)
  change Finite (float16to32 p) at hfinite
  change ∃ u, float16to32 p = asfloat32 u ∧ _
  rw [float16to32_eq] at hfinite ⊢
  have hlt := decodeBits_lt (Nat.mod_lt p.toNat (by norm_num))
  have hbits := @unsignedBits_withSign p.msb _ hlt
  refine ⟨_, rfl, ?_⟩
  obtain ⟨hnan, hinfinite⟩ := hfinite
  rw [isNaN_asfloat32] at hnan
  rw [isInfinite_asfloat32] at hinfinite
  change ¬_ < unsignedBits (withSign _ _) at hnan
  change ¬unsignedBits (withSign _ _) = _ at hinfinite
  rw [natAbs_key]
  change unsignedBits (withSign _ _) < _
  rw [hbits] at hnan hinfinite ⊢
  by_cases hm : p.toNat % 2 ^ 15 < 31 * 2 ^ 10
  · exact decodeBits_finite (by norm_num) hm
  · rw [decodeBits, if_neg hm] at hnan hinfinite
    omega

/-! ## 11 and 10 bits -/

/-- The number of 32 bits encoded without a sign. -/
def encodeUnsigned (k n : Nat) : Nat :=
  if n < 113 * 2 ^ 23 then 0
  else if n < 143 * 2 ^ 23 then n / 2 ^ (23 - k) - 112 * 2 ^ k
  else 31 * 2 ^ k + if 255 * 2 ^ 23 ≤ n then n % 2 ^ k else 0

theorem unsignedFrom32_eq (hk : k = 6 ∨ k = 5) (u : BitVec 32) :
    unsignedFrom32 k (asfloat32 u) =
      if u.msb then 0 else encodeUnsigned k (unsignedBits u) := by
  have hlt := unsignedBits_lt u
  rw [unsignedFrom32, asuint32_asfloat32, toNat_exponent, toNat_mantissa]
  by_cases hmsb : u.msb = true
  · rw [if_pos hmsb, if_pos hmsb]
  rw [if_neg hmsb, if_neg hmsb, encodeUnsigned]
  generalize unsignedBits u = n at *
  have hpos : 0 < 2 ^ k := Nat.two_pow_pos k
  have hor : ∀ a b, b < 2 ^ k → a <<< k ||| b = a * 2 ^ k + b := by
    intro a b hb
    rw [Nat.shiftLeft_eq, Nat.mul_comm, Nat.two_pow_add_eq_or_of_lt hb]
  by_cases hhigh : n < 143 * 2 ^ 23
  · rw [if_neg (by omega), if_pos hhigh]
    split
    · rw [if_pos (by omega)]
    · rw [if_neg (by omega), Nat.shiftRight_eq_div_pow, hor]
      all_goals rcases hk with rfl | rfl <;> omega
  · have hlow : ¬n < 113 * 2 ^ 23 := by omega
    rw [if_pos (by omega), if_neg hlow, if_neg hhigh]
    by_cases htop : 255 * 2 ^ 23 ≤ n
    · rw [if_pos (by omega), if_pos htop,
        hor _ _ (Nat.mod_lt _ hpos)]
      rcases hk with rfl | rfl <;> omega
    · rw [if_neg (by omega), if_neg htop, hor _ _ hpos]

theorem unsignedTo32_eq (hk : k ≤ 23) {p : Nat} (hp : p ≤ 31 * 2 ^ k) :
    unsignedTo32 k p = asfloat32 (withSign false (decodeBits k p)) := by
  have hpos : 0 < 2 ^ k := Nat.two_pow_pos k
  rcases hp.lt_or_eq with hlt | rfl
  · have hfinite := decodeBits_finite hk hlt
    have hmagnitude : magnitude 23 127 (widen k 23 112 p) = magnitude k 15 p :=
      @magnitude_widen k 15 23 112 hk (by omega) p
    have hbits := @unsignedBits_withSign false (decodeBits k p) (by omega)
    have hmsb : ¬(withSign false (decodeBits k p)).msb = true := by
      rw [msb_withSign (by omega)]
      exact Bool.false_ne_true
    have hspecial : ¬(withSign false (decodeBits k p) = 0x80000000 ∨
        0x7F800000 ≤ unsignedBits (withSign false (decodeBits k p))) := by
      rintro (hminus | hbig)
      · rw [hminus] at hmsb
        exact hmsb (by decide)
      · omega
    rw [asfloat32_eq, if_neg hspecial, if_neg hmsb, hbits, decodeBits, if_pos hlt, hmagnitude]
    have hp' : p / 2 ^ k < 31 := Nat.div_lt_of_lt_mul (by rw [Nat.mul_comm]; exact hlt)
    have hsplit := Nat.div_add_mod' p (2 ^ k)
    have hrest := Nat.mod_lt p hpos
    rw [unsignedTo32]
    generalize p / 2 ^ k = exponent at *
    generalize p % 2 ^ k = mantissa at *
    have hstep : ∀ z : ℤ, (2 : ℚ) ^ (z - k) = 2 ^ z / 2 ^ k := by
      intro z
      rw [zpow_sub₀ (by norm_num), zpow_natCast]
    by_cases hzero : exponent = 0
    · rw [if_pos hzero, ← hsplit, hzero, zero_mul, zero_add, magnitude_subnormal hrest, hstep]
      congr 1
      push_cast
      ring
    · rw [if_neg hzero, if_pos hp', ← hsplit, magnitude_normal hzero hrest, hstep]
      congr 1
      push_cast
      field_simp
  · rw [decodeBits_infinity, unsignedTo32, Nat.mul_div_cancel _ hpos, Nat.mul_mod_left]
    rfl

theorem encodeUnsigned_cuts (hk : k = 6 ∨ k = 5) : Cuts k (encodeUnsigned k) where
  fits := by omega
  mono := by
    intro n m hle hm
    rw [encodeUnsigned, encodeUnsigned]
    rcases hk with rfl | rfl <;> split_ifs <;> omega
  zero := by
    rw [encodeUnsigned, if_pos (by norm_num)]
  infinity := by
    rcases hk with rfl | rfl <;> rfl
  less := by
    intro n hn
    rw [encodeUnsigned, if_pos hn]
    rcases hk with rfl | rfl <;> split_ifs <;> omega

/-- A pattern is encoded as it was unless it is subnormal. -/
theorem encodeUnsigned_decodeBits (hk : k = 6 ∨ k = 5) {p : Nat} (hp : p ≤ 31 * 2 ^ k) :
    encodeUnsigned k (decodeBits k p) = if p < 2 ^ k then 0 else p := by
  have hshift : k ≤ 112 := by omega
  have hfits : k ≤ 23 := by omega
  split_ifs with hsub
  · have hless : widen k 23 112 p < 113 * 2 ^ 23 := by
      have := @widen_strictMono k 23 112 hfits hshift p (2 ^ k) hsub
      rw [widen_normal le_rfl] at this
      rcases hk with rfl | rfl <;> omega
    rw [decodeBits, if_pos (by omega), encodeUnsigned, if_pos hless]
  · rw [decodeBits, widen_normal (not_lt.mp hsub), encodeUnsigned]
    rcases hk with rfl | rfl <;> split_ifs <;> omega

theorem unsigned_recode (hk : k = 6 ∨ k = 5) {u : BitVec 32} (hu : ¬(asfloat32 u).IsNaN) :
    (unsigned k).recode (asfloat32 u) = asfloat32 (withSign false
      (if u.msb then 0 else decodeBits k (encodeUnsigned k (unsignedBits u)))) := by
  have hbits : unsignedBits u ≤ 0x7F800000 := not_lt.mp ((isNaN_asfloat32 u).not.mp hu)
  have hcuts := encodeUnsigned_cuts hk
  show unsignedTo32 k (unsignedFrom32 k (asfloat32 u)) = _
  rw [unsignedFrom32_eq hk]
  split_ifs
  · rw [unsignedTo32_eq hcuts.fits (Nat.zero_le _), ← hcuts.zero, hcuts.decode_zero, hcuts.zero]
  · rw [unsignedTo32_eq hcuts.fits (hcuts.le hbits)]

theorem unsignedTo32_isNaN_iff (hk : k ≤ 23) {p : Nat} (hp : p < 2 ^ (k + 5)) :
    (unsignedTo32 k p).IsNaN ↔ 31 * 2 ^ k < p := by
  rcases le_or_gt p (31 * 2 ^ k) with hle | hgt
  · have hdecode : decodeBits k p ≤ 0x7F800000 :=
      decodeBits_infinity k ▸ decodeBits_mono hk hle le_rfl
    rw [unsignedTo32_eq hk hle, isNaN_asfloat32, unsignedBits_withSign (by omega)]
    omega
  · rw [pow_add] at hp
    have hexponent : p / 2 ^ k = 31 := by
      apply Nat.div_eq_of_lt_le
      · exact hgt.le
      · omega
    have hmantissa : p % 2 ^ k ≠ 0 := by
      have := Nat.div_add_mod' p (2 ^ k)
      rw [hexponent] at this
      omega
    rw [unsignedTo32, hexponent, if_neg (by norm_num), if_neg (by norm_num), if_neg hmantissa]
    exact ⟨fun _ => hgt, fun _ => by decide⟩

theorem unsigned_follows (hk : k = 6 ∨ k = 5) :
    (unsigned k).Follows (unsignedStep k (encodeUnsigned k)) := by
  have hcuts := encodeUnsigned_cuts hk
  refine hcuts.follows (monotone_const : Monotone fun _ => 0) Nat.zero_le (fun _ => rfl) ?_
    (fun u hbits => ⟨_, unsigned_recode hk ((isNaN_asfloat32 u).not.mpr hbits.not_gt), ?_⟩)
    fun p hp hfinite => ?_
  · change ofKey 0 = ((0 : ℚ) : WithTop ℚ)
    rw [ofKey, if_neg (by omega), if_neg (by omega), signedMagnitude, if_neg (by omega),
      Int.natAbs_zero, magnitude_zero]
  · have hle := hcuts.decode_le hbits
    rw [key_withSign (by split_ifs <;> omega), if_neg Bool.false_ne_true]
    split_ifs <;> rfl
  change Finite (unsignedTo32 k p) at hfinite
  change ∃ u, unsignedTo32 k p = asfloat32 u ∧ _
  obtain ⟨hnan, hinfinite⟩ := hfinite
  have hle := not_lt.mp ((unsignedTo32_isNaN_iff hcuts.fits hp).not.mp hnan)
  refine ⟨_, unsignedTo32_eq hcuts.fits hle, ?_⟩
  rcases hle.lt_or_eq with hlt | rfl
  · have hfinite := decodeBits_finite hcuts.fits hlt
    rw [natAbs_key, unsignedBits_withSign (by omega)]
    exact hfinite
  · rw [unsignedTo32_eq hcuts.fits le_rfl, decodeBits_infinity] at hinfinite
    exact absurd (by decide) hinfinite

/-! ## What is kept -/

/-- What is not a number stays so where one of the upper 10 bits of its mantissa is set. -/
theorem float16_isNaN_iff {u : BitVec 32} (hu : (asfloat32 u).IsNaN) :
    (float16.recode (asfloat32 u)).IsNaN ↔ u.toNat % 2 ^ 23 / 2 ^ 13 ≠ 0 := by
  have hbits := (isNaN_asfloat32 u).mp hu
  have hlt := unsignedBits_lt u
  have hencode : encode16 (unsignedBits u) =
      31 * 2 ^ 10 + (unsignedBits u - 255 * 2 ^ 23) / 2 ^ 13 := by
    rw [encode16, if_neg (by omega), if_neg (by omega), if_neg (by omega)]
  have hdecode : decodeBits 10 (encode16 (unsignedBits u)) =
      255 * 2 ^ 23 + (unsignedBits u - 255 * 2 ^ 23) / 2 ^ 13 * 2 ^ 13 := by
    rw [hencode, decodeBits, if_neg (by omega), Nat.add_sub_cancel_left]
  have hmantissa : u.toNat % 2 ^ 23 = unsignedBits u - 255 * 2 ^ 23 := by
    rw [unsignedBits] at hbits hlt ⊢
    omega
  rw [float16_recode, isNaN_asfloat32, unsignedBits_withSign (by omega), hdecode, hmantissa]
  omega

/-- What is not a number stays so where it has no sign and one of the lower bits of its
mantissa is set. -/
theorem unsigned_isNaN_iff (hk : k = 6 ∨ k = 5) {u : BitVec 32} (hu : (asfloat32 u).IsNaN) :
    ((unsigned k).recode (asfloat32 u)).IsNaN ↔ u.msb = false ∧ u.toNat % 2 ^ k ≠ 0 := by
  have hbits := (isNaN_asfloat32 u).mp hu
  have hpos : 0 < 2 ^ k := Nat.two_pow_pos k
  have hmod : unsignedBits u % 2 ^ k = u.toNat % 2 ^ k := by
    rw [unsignedBits]
    rcases hk with rfl | rfl <;> omega
  change (unsignedTo32 k (unsignedFrom32 k (asfloat32 u))).IsNaN ↔ _
  rw [unsignedFrom32_eq hk]
  cases hmsb : u.msb with
  | true =>
    rw [if_pos rfl, unsignedTo32_isNaN_iff (by omega) (Nat.two_pow_pos _)]
    simp
  | false =>
    have hencode : encodeUnsigned k (unsignedBits u) = 31 * 2 ^ k + u.toNat % 2 ^ k := by
      rw [encodeUnsigned, if_neg (by omega), if_neg (by omega), if_pos (by omega), hmod]
    rw [if_neg Bool.false_ne_true, hencode]
    generalize u.toNat % 2 ^ k = rest at *
    rw [unsignedTo32_isNaN_iff (by omega) (by rw [pow_add]; omega)]
    simp only [true_and]
    omega

theorem unsigned_inverse (hk : k = 6 ∨ k = 5) {p : Nat} (hle : p ≤ 31 * 2 ^ k) :
    (unsigned k).encode ((unsigned k).decode p) = if p < 2 ^ k then 0 else p := by
  have hfits : k ≤ 23 := by omega
  have hdecode : decodeBits k p ≤ 0x7F800000 :=
    decodeBits_infinity k ▸ decodeBits_mono hfits hle le_rfl
  show unsignedFrom32 k (unsignedTo32 k p) = _
  rw [unsignedTo32_eq hfits hle, unsignedFrom32_eq hk, msb_withSign (by omega),
    if_neg Bool.false_ne_true, unsignedBits_withSign (by omega), encodeUnsigned_decodeBits hk hle]

theorem unsigned_sound_iff (hk : k = 6 ∨ k = 5) (u v : BitVec 32) (p : Nat) :
    (unsigned k).Sound u v p ↔
      ((asfloat32 u).IsNaN → u.msb = false ∧ u.toNat % 2 ^ k ≠ 0) ∧ (p = 0 ∨ 2 ^ k ≤ p) := by
  rw [(unsigned_follows hk).sound_iff p]
  constructor
  · rintro ⟨hnan, hpattern⟩
    refine ⟨fun hu => (unsigned_isNaN_iff hk hu).mp (hnan hu), ?_⟩
    by_contra hsub
    push Not at hsub
    have hp : p < 2 ^ (k + 5) := by
      rw [pow_add]
      omega
    have hback := hpattern hp ((unsignedTo32_isNaN_iff (by omega) hp).not.mpr (by omega))
    rw [unsigned_inverse hk (by omega), if_pos hsub.2] at hback
    exact hsub.1 hback.symm
  · rintro ⟨hnan, hpattern⟩
    refine ⟨fun hu => (unsigned_isNaN_iff hk hu).mpr (hnan hu), fun hp hnot => ?_⟩
    rw [unsigned_inverse hk (not_lt.mp ((unsignedTo32_isNaN_iff (by omega) hp).not.mp hnot))]
    split_ifs
    · omega
    · rfl

theorem float16_sound_iff (u v : BitVec 32) (p : BitVec 16) :
    float16.Sound u v p ↔ ((asfloat32 u).IsNaN → u.toNat % 2 ^ 23 / 2 ^ 13 ≠ 0) := by
  rw [float16_follows.sound_iff p]
  constructor
  · rintro ⟨hnan, -⟩ hu
    exact (float16_isNaN_iff hu).mp (hnan hu)
  · intro hnan
    refine ⟨fun hu => (float16_isNaN_iff hu).mpr (hnan hu), fun _ hnot => ?_⟩
    change float32to16 (float16to32 p) = p
    change ¬(float16to32 p).IsNaN at hnot
    have hlt := decodeBits_lt (Nat.mod_lt p.toNat (by norm_num))
    rw [float16to32_eq] at hnot ⊢
    have hsign := @msb_withSign p.msb _ hlt
    have habs := @unsignedBits_withSign p.msb _ hlt
    have hle : p.toNat % 2 ^ 15 ≤ 31 * 2 ^ 10 := by
      by_contra hgt
      apply hnot
      rw [isNaN_asfloat32]
      change _ < unsignedBits (withSign _ _)
      rw [habs, decodeBits, if_neg (by omega)]
      omega
    apply BitVec.eq_of_toNat_eq
    rw [float32to16_toNat]
    change (if (withSign _ _).msb then _ else _) + encode16 (unsignedBits (withSign _ _)) = _
    rw [hsign, habs, encode16_decodeBits hle, BitVec.msb_eq_decide]
    simp only [decide_eq_true_eq]
    split_ifs <;> omega

/-- When the encoders are sound: the bits that are kept of what is no number are not all 0,
and a pattern without a sign is not subnormal. -/
theorem encoders_sound_iff (u v : BitVec 32) :
    (∀ p, float16.Sound u v p ↔ ((asfloat32 u).IsNaN → u.toNat % 2 ^ 23 / 2 ^ 13 ≠ 0)) ∧
    (∀ p, float11.Sound u v p ↔
      ((asfloat32 u).IsNaN → u.msb = false ∧ u.toNat % 2 ^ 6 ≠ 0) ∧ (p = 0 ∨ 2 ^ 6 ≤ p)) ∧
    (∀ p, float10.Sound u v p ↔
      ((asfloat32 u).IsNaN → u.msb = false ∧ u.toNat % 2 ^ 5 ≠ 0) ∧ (p = 0 ∨ 2 ^ 5 ≤ p)) :=
  ⟨float16_sound_iff u v, unsigned_sound_iff (.inl rfl) u v, unsigned_sound_iff (.inr rfl) u v⟩

/-- `quiet_NaN()` has the highest bit of the mantissa only: its lower bits say infinity. And the
least pattern of 11 bits is encoded as 0. -/
theorem quietNaN_not_kept :
    float11.recode quietNaN = infinity ∧ float11.encode (float11.decode 1) = 0 ∧
      ¬∀ (u v : BitVec 32) (p : BitVec 16) (q r : Nat),
        float16.Sound u v p ∧ float11.Sound u v q ∧ float10.Sound u v r := by
  refine ⟨by decide, ?_, fun h => ?_⟩
  · exact unsigned_inverse (.inl rfl) (by norm_num)
  · have hnan := (h 0x7FC00000 0 0 0 0).2.1.keepsClass.nan (by decide)
    exact absurd hnan (by decide)

end SmallFloat

end Lhatove
