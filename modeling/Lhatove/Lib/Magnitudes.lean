import Mathlib.Data.Int.Log
import Mathlib.Tactic

/-!
# Magnitudes of binary floating-point numbers

A pattern has an exponent above `k` bits of mantissa. With the exponent 0 the mantissa is
the significand, with any other a bit is put before it.

- Patterns are in the order of their numbers.
- A format with more bits of mantissa and a greater bias has every number of one with
  fewer: `magnitude_widen` says with which pattern.
-/

namespace Lhatove

/-- What the mantissa of a pattern is multiplied by. -/
def ulp (k bias n : Nat) : ℚ := 2 ^ ((max 1 (n / 2 ^ k) : Nat) - bias - k : ℤ)

def significand (k n : Nat) : Nat := if n / 2 ^ k = 0 then n % 2 ^ k else 2 ^ k + n % 2 ^ k

/-- The number of a pattern. -/
def magnitude (k bias n : Nat) : ℚ := significand k n * ulp k bias n

variable {k bias n : Nat}

theorem ulp_pos (k bias n : Nat) : 0 < ulp k bias n := zpow_pos (by norm_num) _

theorem magnitude_nonneg (k bias n : Nat) : 0 ≤ magnitude k bias n :=
  mul_nonneg (Nat.cast_nonneg _) (ulp_pos k bias n).le

@[simp]
theorem magnitude_zero (k bias : Nat) : magnitude k bias 0 = 0 := by
  simp [magnitude, significand]

/-! ## Order -/

theorem magnitude_succ (k bias n : Nat) :
    magnitude k bias (n + 1) = magnitude k bias n + ulp k bias n := by
  have hpos : 0 < 2 ^ k := Nat.two_pow_pos k
  by_cases hcarry : n % 2 ^ k + 1 = 2 ^ k
  · -- the mantissa runs over into the exponent
    have hdvd : 2 ^ k ∣ n + 1 := by
      rw [Nat.dvd_iff_mod_eq_zero, Nat.add_mod]
      by_cases hone : 2 ^ k = 1
      · rw [hone, Nat.mod_one]
      · rw [Nat.mod_eq_of_lt (show 1 < 2 ^ k by omega), hcarry, Nat.mod_self]
    have hdiv : (n + 1) / 2 ^ k = n / 2 ^ k + 1 := by
      rw [Nat.succ_div, if_pos hdvd]
    have hmod : (n + 1) % 2 ^ k = 0 := Nat.mod_eq_zero_of_dvd hdvd
    have hcast : ((n % 2 ^ k : Nat) : ℚ) + 1 = 2 ^ k := by exact_mod_cast hcarry
    simp only [magnitude, significand, ulp, hdiv, hmod]
    by_cases hzero : n / 2 ^ k = 0
    · rw [if_neg (Nat.succ_ne_zero _), if_pos hzero, hzero]
      push_cast
      simp only [max_self, max_eq_left zero_le_one, add_zero]
      rw [← hcast]
      ring
    · rw [if_neg (Nat.succ_ne_zero _), if_neg hzero, max_eq_right (Nat.succ_pos _),
        max_eq_right (Nat.one_le_iff_ne_zero.mpr hzero)]
      have hstep : (2 : ℚ) ^ (((n / 2 ^ k + 1 : Nat) : ℤ) - bias - k) =
          2 * 2 ^ (((n / 2 ^ k : Nat) : ℤ) - bias - k) := by
        rw [← zpow_one_add₀ (by norm_num)]
        congr 1
        push_cast
        ring
      rw [hstep]
      push_cast
      rw [add_zero, ← hcast]
      ring
  · have hlt : n % 2 ^ k + 1 < 2 ^ k := by
      have := Nat.mod_lt n hpos
      omega
    have hmod : (n + 1) % 2 ^ k = n % 2 ^ k + 1 := by
      rw [Nat.add_mod, Nat.mod_eq_of_lt (show 1 < 2 ^ k by omega), Nat.mod_eq_of_lt hlt]
    have hdiv : (n + 1) / 2 ^ k = n / 2 ^ k := by
      rw [Nat.succ_div, if_neg, add_zero]
      intro hdvd
      rw [Nat.dvd_iff_mod_eq_zero, hmod] at hdvd
      omega
    simp only [magnitude, significand, ulp, hdiv, hmod]
    split_ifs <;> (push_cast; ring)

theorem magnitude_strictMono (k bias : Nat) : StrictMono (magnitude k bias) := by
  refine strictMono_nat_of_lt_succ fun n => ?_
  rw [magnitude_succ]
  exact lt_add_of_pos_right _ (ulp_pos k bias n)

/-! ## Normal and subnormal patterns -/

theorem magnitude_normal {exponent mantissa : Nat} (hexponent : exponent ≠ 0)
    (hmantissa : mantissa < 2 ^ k) :
    magnitude k bias (exponent * 2 ^ k + mantissa) =
      (2 ^ k + mantissa) * 2 ^ ((exponent : ℤ) - bias - k) := by
  have hdiv : (exponent * 2 ^ k + mantissa) / 2 ^ k = exponent := by
    rw [Nat.mul_comm, Nat.mul_add_div (Nat.two_pow_pos k), Nat.div_eq_of_lt hmantissa, add_zero]
  have hmod : (exponent * 2 ^ k + mantissa) % 2 ^ k = mantissa := by
    rw [Nat.mul_comm, Nat.mul_add_mod, Nat.mod_eq_of_lt hmantissa]
  simp only [magnitude, significand, ulp, hdiv, hmod]
  rw [if_neg hexponent, max_eq_right (by omega)]
  push_cast
  rfl

theorem magnitude_subnormal (hn : n < 2 ^ k) :
    magnitude k bias n = n * 2 ^ (1 - bias - k : ℤ) := by
  simp only [magnitude, significand, ulp, Nat.div_eq_of_lt hn, Nat.mod_eq_of_lt hn]
  simp

/-! ## A wider format -/

/-- The pattern of `K` bits of mantissa, and a bias that is greater by `shift`, for the
same number. -/
def widen (k K shift n : Nat) : Nat :=
  if n = 0 then 0
  else if n < 2 ^ k then
    (shift + 1 + n.log2 - k) * 2 ^ K + (n - 2 ^ n.log2) * 2 ^ (K - n.log2)
  else shift * 2 ^ K + n * 2 ^ (K - k)

theorem magnitude_widen {K shift : Nat} (hk : k ≤ K) (hshift : k ≤ shift) (n : Nat) :
    magnitude K (bias + shift) (widen k K shift n) = magnitude k bias n := by
  by_cases hzero : n = 0
  · simp [hzero, widen]
  by_cases hsub : n < 2 ^ k
  · have hlog : n.log2 < k := (Nat.log2_lt hzero).mpr hsub
    have hle : 2 ^ n.log2 ≤ n := Nat.log2_self_le hzero
    have hlt : n - 2 ^ n.log2 < 2 ^ n.log2 := by
      have : n < 2 ^ (n.log2 + 1) := Nat.lt_log2_self
      omega
    have hpow : 2 ^ n.log2 * 2 ^ (K - n.log2) = 2 ^ K := by
      rw [← pow_add]
      congr 1
      omega
    rw [widen, if_neg hzero, if_pos hsub, magnitude_normal (by omega), magnitude_subnormal hsub]
    · have hcast : (2 : ℚ) ^ K + ((n - 2 ^ n.log2) * 2 ^ (K - n.log2) : Nat) =
          n * 2 ^ (K - n.log2) := by
        rw [← Nat.cast_ofNat, ← Nat.cast_pow, ← Nat.cast_pow, ← Nat.cast_add, ← Nat.cast_mul,
          Nat.sub_mul, hpow]
        congr 1
        exact Nat.add_sub_of_le (hpow ▸ Nat.mul_le_mul_right _ hle)
      rw [hcast, mul_assoc, ← zpow_natCast, ← zpow_add₀ (by norm_num)]
      congr 2
      push_cast [show n.log2 ≤ K by omega, show k ≤ shift + 1 + n.log2 by omega]
      ring
    · rw [← hpow]
      exact Nat.mul_lt_mul_of_pos_right hlt (Nat.two_pow_pos _)
  · obtain ⟨exponent, mantissa, hmantissa, rfl⟩ :
        ∃ exponent mantissa, mantissa < 2 ^ k ∧ n = exponent * 2 ^ k + mantissa :=
      ⟨n / 2 ^ k, n % 2 ^ k, Nat.mod_lt _ (Nat.two_pow_pos k), (Nat.div_add_mod' n _).symm⟩
    have hexponent : exponent ≠ 0 := by
      rintro rfl
      omega
    have hpow : 2 ^ k * 2 ^ (K - k) = 2 ^ K := by
      rw [← pow_add]
      congr 1
      omega
    have heq : shift * 2 ^ K + (exponent * 2 ^ k + mantissa) * 2 ^ (K - k) =
        (shift + exponent) * 2 ^ K + mantissa * 2 ^ (K - k) := by
      rw [Nat.add_mul, Nat.add_mul, Nat.mul_assoc, hpow]
      ring
    have hcast : (2 : ℚ) ^ K + (mantissa * 2 ^ (K - k) : Nat) =
        ((2 : ℚ) ^ k + mantissa) * 2 ^ (K - k) := by
      rw [add_mul, ← pow_add, show k + (K - k) = K by omega]
      push_cast
      rfl
    rw [widen, if_neg hzero, if_neg hsub, heq, magnitude_normal (by omega),
      magnitude_normal hexponent hmantissa, hcast, mul_assoc, ← zpow_natCast _ (K - k),
      ← zpow_add₀ (by norm_num)]
    · congr 2
      push_cast [hk]
      ring
    · rw [← hpow]
      exact Nat.mul_lt_mul_of_pos_right hmantissa (Nat.two_pow_pos _)

theorem widen_strictMono {K shift : Nat} (hk : k ≤ K) (hshift : k ≤ shift) :
    StrictMono (widen k K shift) := by
  intro n m hlt
  rw [← (magnitude_strictMono K (0 + shift)).lt_iff_lt, magnitude_widen hk hshift,
    magnitude_widen hk hshift]
  exact magnitude_strictMono k 0 hlt

theorem widen_normal {K shift : Nat} (hn : 2 ^ k ≤ n) :
    widen k K shift n = shift * 2 ^ K + n * 2 ^ (K - k) := by
  rw [widen, if_neg (by have := Nat.two_pow_pos k; omega), if_neg (by omega)]

end Lhatove
