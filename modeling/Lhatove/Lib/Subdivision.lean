import Mathlib.Tactic

/-!
# Subdivision of curves

A sequence of control points is blended: each point is moved towards the next one.
The value of a curve of degree `d` at `t` is the first point after `d` rounds.

- `blend`: a round, for a whole sequence; the rounds are linear maps that commute,
  and a mean of two is a round again;
- `leftPart`, `rightPart`: the control points of the two parts;
- `leftPart_value`, `rightPart_value`: the parts are parts of the same curve.
-/

namespace Lhatove

variable {R V : Type*} [CommRing R] [AddCommGroup V] [Module R V]

/-! ## Rounds -/

/-- Each point is replaced by the next one. -/
def shift : Module.End R (Nat → V) := LinearMap.funLeft R V Nat.succ

/-- Each point is moved towards the next one. -/
def blend (t : R) : Module.End R (Nat → V) := (1 - t) • 1 + t • shift

@[simp]
theorem blend_apply (t : R) (p : Nat → V) (i : Nat) :
    blend t p i = (1 - t) • p i + t • p (i + 1) := rfl

theorem blend_one : (blend 1 : Module.End R (Nat → V)) = shift := by
  rw [blend, sub_self, zero_smul, one_smul, zero_add]

theorem blend_commute (s t : R) : Commute (blend s : Module.End R (Nat → V)) (blend t) := by
  have hshift : ∀ a : R, Commute (shift : Module.End R (Nat → V)) (blend a) := fun a =>
    ((Commute.one_right _).smul_right _).add_right ((Commute.refl _).smul_right _)
  exact ((Commute.one_left _).smul_left _).add_left ((hshift t).smul_left _)

theorem blend_mix (u s t : R) :
    (1 - u) • (blend s : Module.End R (Nat → V)) + u • blend t =
      blend ((1 - u) * s + u * t) := by
  rw [blend, blend, blend]
  module

theorem blend_part (x t : R) :
    (1 - x) • (1 : Module.End R (Nat → V)) + x • blend t = blend (x * t) := by
  rw [blend, blend]
  module

/-- What becomes of a point depends on as many of the next ones as there are rounds. -/
theorem blend_pow_congr {t : R} {m j : Nat} {p q : Nat → V}
    (h : ∀ i, j ≤ i → i ≤ j + m → p i = q i) : (blend t ^ m) p j = (blend t ^ m) q j := by
  induction m generalizing j with
  | zero => exact h j le_rfl le_rfl
  | succ m ih =>
    rw [pow_succ', Module.End.mul_apply, Module.End.mul_apply, blend_apply, blend_apply,
      ih fun i hji hi => h i hji (by omega), ih fun i hji hi => h i (by omega) (by omega)]

/-! ## The left part -/

/-- The first points of the rounds. -/
def leftPart (t : R) (p : Nat → V) : Nat → V := fun k => (blend t ^ k) p 0

theorem blend_leftPart (x t : R) (p : Nat → V) :
    blend x (leftPart t p) = leftPart t (blend (x * t) p) := by
  funext k
  have hsplit : (blend t ^ k) (((1 - x) • 1 + x • blend t : Module.End R (Nat → V)) p) 0 =
      (1 - x) • (blend t ^ k) p 0 + x • (blend t ^ (k + 1)) p 0 := by
    rw [pow_succ, Module.End.mul_apply, LinearMap.add_apply, map_add, LinearMap.smul_apply,
      LinearMap.smul_apply, map_smul, map_smul]
    rfl
  rw [leftPart, ← blend_part, hsplit]
  rfl

/-- **The left part** is the curve up to `t`. -/
theorem leftPart_value (x t : R) (d : Nat) (p : Nat → V) :
    (blend x ^ d) (leftPart t p) 0 = (blend (x * t) ^ d) p 0 := by
  have hpow : (blend x ^ d) (leftPart t p) = leftPart t ((blend (x * t) ^ d) p) := by
    induction d with
    | zero => rfl
    | succ d ih =>
      rw [pow_succ', Module.End.mul_apply, ih, blend_leftPart, pow_succ', Module.End.mul_apply]
  rw [hpow]
  rfl

/-! ## The right part -/

/-- The last points of the rounds of a curve of degree `d`. -/
def rightPart (d : Nat) (t : R) (p : Nat → V) : Nat → V := fun j => (blend t ^ (d - j)) p j

theorem shift_pow_apply (j i : Nat) (p : Nat → V) :
    ((shift : Module.End R (Nat → V)) ^ j) p i = p (i + j) := by
  induction j generalizing i with
  | zero => rfl
  | succ j ih =>
    rw [pow_succ', Module.End.mul_apply, Nat.add_comm j 1, ← Nat.add_assoc]
    exact ih (i + 1)

/-- After `m` rounds of the right part, as many of its own have become those of the result. -/
theorem blend_pow_rightPart (u t : R) (d : Nat) (p : Nat → V) {m j : Nat} (h : m + j ≤ d) :
    (blend u ^ m) (rightPart d t p) j =
      (blend t ^ (d - m - j) * blend 1 ^ j * blend ((1 - u) * t + u) ^ m :
        Module.End R (Nat → V)) p 0 := by
  induction m generalizing j with
  | zero =>
    have hcomm := (blend_commute (V := V) t (1 : R)).pow_pow (d - 0 - j) j
    rw [hcomm.eq, pow_zero, pow_zero, mul_one, Nat.sub_zero, Module.End.mul_apply, blend_one,
      shift_pow_apply, Nat.zero_add]
    rfl
  | succ m ih =>
    have hmix := blend_mix (V := V) u t (1 : R)
    rw [mul_one] at hmix
    obtain ⟨e, he⟩ : ∃ e, d - m - j = e + 1 := ⟨d - m - j - 1, by omega⟩
    have he' : d - m - (j + 1) = e := by omega
    have he'' : d - (m + 1) - j = e := by omega
    -- one factor more goes to each of the two points, and the mean of these is taken
    have hleft : (blend t ^ (e + 1) * blend 1 ^ j * blend ((1 - u) * t + u) ^ m :
        Module.End R (Nat → V)) =
        blend t * (blend t ^ e * blend 1 ^ j * blend ((1 - u) * t + u) ^ m) := by
      rw [pow_succ', mul_assoc, mul_assoc, mul_assoc]
    have hright : (blend t ^ e * blend 1 ^ (j + 1) * blend ((1 - u) * t + u) ^ m :
        Module.End R (Nat → V)) =
        blend 1 * (blend t ^ e * blend 1 ^ j * blend ((1 - u) * t + u) ^ m) := by
      rw [pow_succ', ← mul_assoc, ← mul_assoc, ← mul_assoc,
        ((blend_commute (1 : R) t).pow_right e).eq]
    have hsum : (blend t ^ e * blend 1 ^ j * blend ((1 - u) * t + u) ^ (m + 1) :
        Module.End R (Nat → V)) =
        blend ((1 - u) * t + u) * (blend t ^ e * blend 1 ^ j * blend ((1 - u) * t + u) ^ m) := by
      have hcomm := ((blend_commute (V := V) ((1 - u) * t + u) t).pow_right e).mul_right
        ((blend_commute ((1 - u) * t + u) 1).pow_right j)
      rw [pow_succ', ← mul_assoc, ← mul_assoc, hcomm.eq]
    rw [pow_succ', Module.End.mul_apply, blend_apply, ih (by omega), ih (by omega), he, he', he'',
      hleft, hright, hsum, ← hmix, add_mul, smul_mul_assoc, smul_mul_assoc]
    rfl

/-- **The right part** is the curve from `t` on. -/
theorem rightPart_value (u t : R) (d : Nat) (p : Nat → V) :
    (blend u ^ d) (rightPart d t p) 0 = (blend ((1 - u) * t + u) ^ d) p 0 := by
  have := blend_pow_rightPart u t d p (show d + 0 ≤ d from le_rfl)
  rwa [Nat.sub_self, Nat.zero_sub, pow_zero, pow_zero, one_mul, one_mul] at this

end Lhatove
