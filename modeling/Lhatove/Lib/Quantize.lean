import Mathlib.Tactic

/-!
# Numbers between 0 and 1, in equal steps

A number is stored as one of `max + 1` levels from 0 to 1: it is brought into
that range and rounded to the level that is nearest, upwards between two.

- `quantize_level`: levels are stored as what they are;
- `quantize_nearest`: any number is stored as a level that is nearest to it;
- `quantize_eq_of_nearest`: numbers whose levels are nearest to each other have
  one level.
-/

namespace Lhatove

section Quantize

variable {α : Type} [Field α] [LinearOrder α] [IsStrictOrderedRing α]

/-- The number nearest to `x` between 0 and 1. -/
def clamp01 (x : α) : α := min (max x 0) 1

/-- The level of a number. -/
def quantize [FloorSemiring α] (max : Nat) (x : α) : Nat := ⌊clamp01 x * max + 1 / (2 : ℕ)⌋₊

/-- The levels. -/
def levels (max : Nat) : Set α := {v | ∃ k : Nat, k ≤ max ∧ v = (k : α) / max}

/-- `v` is a value that is nearest to `x`. -/
def Nearest (values : Set α) (x v : α) : Prop := v ∈ values ∧ ∀ w ∈ values, |x - v| ≤ |x - w|

theorem clamp01_nonneg (x : α) : 0 ≤ clamp01 x := le_min (le_max_right ..) zero_le_one

omit [IsStrictOrderedRing α] in
theorem clamp01_le_one (x : α) : clamp01 x ≤ 1 := min_le_right ..

omit [IsStrictOrderedRing α] in
theorem clamp01_of_mem {x : α} (h0 : 0 ≤ x) (h1 : x ≤ 1) : clamp01 x = x := by
  rw [clamp01, max_eq_left h0, min_eq_left h1]

theorem level_nonneg (k max : Nat) : (0 : α) ≤ (k : α) / max :=
  div_nonneg (Nat.cast_nonneg k) (Nat.cast_nonneg max)

theorem level_le_one {k max : Nat} (h : k ≤ max) : (k : α) / max ≤ 1 :=
  div_le_one_of_le₀ (Nat.cast_le.mpr h) (Nat.cast_nonneg max)

omit [IsStrictOrderedRing α] in
theorem nearest_singleton (x v : α) : Nearest {v} x v := by
  refine ⟨rfl, ?_⟩
  rintro w rfl
  exact le_refl _

theorem abs_sub_clamp01_le {x v w : α} (hv : 0 ≤ v ∧ v ≤ 1) (hw : 0 ≤ w ∧ w ≤ 1)
    (h : |clamp01 x - v| ≤ |clamp01 x - w|) : |x - v| ≤ |x - w| := by
  rcases le_total x 0 with hx | hx
  · have hc : clamp01 x = 0 := by rw [clamp01, max_eq_right hx, min_eq_left zero_le_one]
    rw [hc, zero_sub, zero_sub, abs_neg, abs_neg, abs_of_nonneg hv.1, abs_of_nonneg hw.1] at h
    rw [abs_of_nonpos (by linarith [hv.1]), abs_of_nonpos (by linarith [hw.1])]
    linarith
  rcases le_total x 1 with hx1 | hx1
  · rwa [clamp01_of_mem hx hx1] at h
  · have hc : clamp01 x = 1 := by
      rw [clamp01, max_eq_left hx, min_eq_right hx1]
    rw [hc, abs_of_nonneg (by linarith [hv.2]), abs_of_nonneg (by linarith [hw.2])] at h
    rw [abs_of_nonneg (by linarith [hv.2]), abs_of_nonneg (by linarith [hw.2])]
    linarith

variable [FloorSemiring α]

omit [IsStrictOrderedRing α] in
theorem quantize_eq (max : Nat) (x : α) : quantize max x = ⌊clamp01 x * max + 1 / 2⌋₊ := by
  rw [quantize, Nat.cast_ofNat]

theorem quantize_le (max : Nat) (x : α) : quantize max x ≤ max := by
  have hle : clamp01 x * max ≤ max :=
    mul_le_of_le_one_left (Nat.cast_nonneg max) (clamp01_le_one x)
  rw [quantize_eq, ← Nat.lt_succ_iff, Nat.floor_lt (by
    have := mul_nonneg (clamp01_nonneg x) (Nat.cast_nonneg (α := α) max)
    linarith), Nat.cast_succ]
  linarith

theorem quantize_spec (max : Nat) (x : α) :
    clamp01 x * max - 1 / 2 < quantize max x ∧ (quantize max x : α) ≤ clamp01 x * max + 1 / 2 := by
  have hnonneg : 0 ≤ clamp01 x * max + 1 / 2 := by
    have := mul_nonneg (clamp01_nonneg x) (Nat.cast_nonneg (α := α) max)
    linarith
  constructor
  · have hlt := Nat.lt_floor_add_one (clamp01 x * max + 1 / 2)
    rw [quantize_eq]
    linarith
  · rw [quantize_eq]
    exact Nat.floor_le hnonneg

/-- **A level is stored as what it is.** -/
theorem quantize_level {k max : Nat} (h : k ≤ max) (hmax : 0 < max) :
    quantize max ((k : α) / max) = k := by
  have hne : (max : α) ≠ 0 := Nat.cast_ne_zero.mpr (Nat.ne_of_gt hmax)
  rw [quantize_eq, clamp01_of_mem (level_nonneg k max) (level_le_one h), div_mul_cancel₀ _ hne,
    Nat.floor_eq_iff (by positivity)]
  constructor <;> linarith

omit [FloorSemiring α] in
theorem abs_sub_level {x : α} {k max : Nat} (hmax : 0 < max) :
    |x - (k : α) / max| = |x * max - k| / max := by
  have hpos : (0 : α) < max := Nat.cast_pos.mpr hmax
  rw [← abs_of_pos hpos, ← abs_div, abs_of_pos hpos, sub_div, mul_div_cancel_right₀ _ hpos.ne']

/-- **The level of a number** is nearest to it. -/
theorem quantize_nearest {max : Nat} (hmax : 0 < max) (x : α) :
    Nearest (levels max) x ((quantize max x : α) / max) := by
  have hpos : (0 : α) < max := Nat.cast_pos.mpr hmax
  have hle := quantize_le max x
  refine ⟨⟨_, hle, rfl⟩, ?_⟩
  rintro w ⟨k, hk, rfl⟩
  refine abs_sub_clamp01_le ⟨level_nonneg _ _, level_le_one hle⟩ ⟨level_nonneg _ _, level_le_one hk⟩ ?_
  rw [abs_sub_level hmax, abs_sub_level hmax]
  refine div_le_div_of_nonneg_right ?_ hpos.le
  obtain ⟨hlow, hhigh⟩ := quantize_spec max x
  rcases Nat.lt_trichotomy k (quantize max x) with hlt | heq | hgt
  · -- A smaller level is a whole step below.
    have hstep : (k : α) + 1 ≤ quantize max x := by exact_mod_cast hlt
    rw [abs_le]
    have hdist : clamp01 x * max - k ≤ |clamp01 x * max - k| := le_abs_self _
    constructor <;> linarith
  · rw [heq]
  · have hstep : (quantize max x : α) + 1 ≤ k := by exact_mod_cast hgt
    have hdist : -(clamp01 x * max - k) ≤ |clamp01 x * max - k| := neg_le_abs _
    rw [abs_le]
    constructor <;> linarith

theorem le_quantize_of_nearest {x : α} {k max : Nat} (hmax : 0 < max) (hk : k ≤ max)
    (h : Nearest (levels max) x ((k : α) / max)) : k ≤ quantize max x := by
  have hpos : (0 : α) < max := Nat.cast_pos.mpr hmax
  by_contra hlt
  have hstep : (quantize max x : α) + 1 ≤ k := by exact_mod_cast not_le.mp hlt
  have hkmax : (k : α) ≤ max := Nat.cast_le.mpr hk
  have hnear := h.2 _ ⟨quantize max x, quantize_le max x, rfl⟩
  rw [abs_sub_level hmax, abs_sub_level hmax, div_le_div_iff_of_pos_right hpos] at hnear
  -- `x` is not below the middle of the two levels.
  have hmiddle : (quantize max x : α) + 1 / 2 ≤ x * max := by
    by_contra hbelow
    have hdist : k - x * max ≤ |x * max - k| := by
      rw [abs_sub_comm]
      exact le_abs_self _
    rcases abs_cases (x * max - quantize max x) with ⟨habs, -⟩ | ⟨habs, -⟩ <;> linarith
  have hclamp : (quantize max x : α) + 1 / 2 ≤ clamp01 x * max := by
    rcases le_total x 1 with hx | hx
    · have hle : x ≤ clamp01 x := le_min (le_max_left ..) hx
      exact hmiddle.trans (mul_le_mul_of_nonneg_right hle hpos.le)
    · have hone : clamp01 x = 1 := min_eq_right (hx.trans (le_max_left ..))
      rw [hone, one_mul]
      linarith
  linarith [(quantize_spec max x).1]

/-- **Numbers whose levels are nearest to each other** have one level. -/
theorem quantize_eq_of_nearest {x y : α} {max : Nat} (hmax : 0 < max)
    (hx : Nearest (levels max) x ((quantize max y : α) / max))
    (hy : Nearest (levels max) y ((quantize max x : α) / max)) :
    quantize max x = quantize max y :=
  Nat.le_antisymm (le_quantize_of_nearest hmax (quantize_le max x) hy)
    (le_quantize_of_nearest hmax (quantize_le max y) hx)

end Quantize

end Lhatove
