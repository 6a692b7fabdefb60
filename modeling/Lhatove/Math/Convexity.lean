import Lhatove.Math.Polygons

/-!
# What `isConvex` tells

The corner at the last vertex is compared with all others, by the sign of a
product. If it does not turn at all, nothing is compared.

- `corner`, `TurnsBothWays`: how a polygon turns at its vertices;
- `isConvex_iff`: what the loop finds out;
- `isConvex_sound_iff`: when polygons that turn both ways are rejected.
-/

namespace Lhatove.Math

variable {K : Type} [Field K] [LinearOrder K]

/-- How the polygon turns at a vertex: to the left if positive. -/
def corner (polygon : List (Vector2 K)) (m : Nat) : K :=
  turnAt polygon (prevIdx polygon.length m) m (nextIdx polygon.length m)

/-- Two corners turn in opposite directions. -/
def TurnsBothWays (polygon : List (Vector2 K)) : Prop :=
  (∃ m < polygon.length, 0 < corner polygon m) ∧ ∃ m < polygon.length, corner polygon m < 0

theorem isConvexLoop_iff {polygon : List (Vector2 K)} {winding : K} {rounds k : Nat}
    (hrounds : k + rounds + 1 = polygon.length) :
    isConvexLoop polygon winding rounds (prevIdx polygon.length k) k = true ↔
      ∀ m, k ≤ m → m + 1 < polygon.length → 0 ≤ corner polygon m * winding := by
  induction rounds generalizing k with
  | zero =>
    refine ⟨fun _ m hkm hm => ?_, fun _ => rfl⟩
    omega
  | succ rounds ih =>
    have hcorner : turnAt polygon (prevIdx polygon.length k) k (k + 1) = corner polygon k := by
      rw [corner, nextIdx, if_neg (by omega)]
    have hprev : prevIdx polygon.length (k + 1) = k := by
      rw [prevIdx, if_neg (Nat.succ_ne_zero k), Nat.add_sub_cancel]
    have ih := ih (k := k + 1) (by omega)
    rw [hprev] at ih
    rw [isConvexLoop, hcorner]
    split
    next hneg =>
      constructor
      · intro hfalse
        cases hfalse
      · intro hall
        exact absurd (hall k le_rfl (by omega)) (not_le.mpr hneg)
    next hneg =>
      rw [ih]
      constructor
      · intro hall m hkm hm
        rcases Nat.eq_or_lt_of_le hkm with rfl | hlt
        · exact not_lt.mp hneg
        · exact hall m hlt hm
      · intro hall m hkm hm
        exact hall m (by omega) hm

/-- **`isConvex`**: no corner turns against the one at the last vertex. -/
theorem isConvex_iff (polygon : List (Vector2 K)) :
    isConvex polygon = true ↔ 3 ≤ polygon.length ∧ ∀ m, m + 1 < polygon.length →
      0 ≤ corner polygon m * corner polygon (polygon.length - 1) := by
  unfold isConvex
  dsimp only
  by_cases hlength : polygon.length < 3
  · rw [if_pos hlength]
    constructor
    · intro hfalse
      cases hfalse
    · rintro ⟨hge, -⟩
      omega
  · rw [if_neg hlength]
    have hlast : turnAt polygon (polygon.length - 2) (polygon.length - 1) 0 =
        corner polygon (polygon.length - 1) := by
      rw [corner, prevIdx, if_neg (by omega), nextIdx,
        if_pos (by omega)]
      rfl
    have hfirst : prevIdx polygon.length 0 = polygon.length - 1 := if_pos rfl
    rw [hlast]
    have hloop := @isConvexLoop_iff K _ _ polygon (corner polygon (polygon.length - 1))
      (polygon.length - 1) 0 (by omega)
    rw [hfirst] at hloop
    rw [hloop]
    constructor
    · intro hall
      exact ⟨by omega, fun m hm => hall m (Nat.zero_le m) hm⟩
    · rintro ⟨-, hall⟩ m - hm
      exact hall m hm

variable [IsStrictOrderedRing K]

/-- If the corner at the last vertex turns, it tells those that turn the other way. -/
theorem rejects_of_turns {polygon : List (Vector2 K)} (hboth : TurnsBothWays polygon)
    (hlast : corner polygon (polygon.length - 1) ≠ 0) : isConvex polygon = false := by
  rw [← Bool.not_eq_true, isConvex_iff]
  rintro ⟨hlength, hall⟩
  obtain ⟨⟨a, ha, hpos⟩, b, hb, hneg⟩ := hboth
  rcases lt_or_gt_of_ne hlast with hright | hleft
  · have hne : a ≠ polygon.length - 1 := by
      rintro rfl
      exact absurd hpos (not_lt.mpr hright.le)
    exact absurd (hall a (by omega)) (not_le.mpr (mul_neg_of_pos_of_neg hpos hright))
  · have hne : b ≠ polygon.length - 1 := by
      rintro rfl
      exact absurd hneg (not_lt.mpr hleft.le)
    exact absurd (hall b (by omega)) (not_le.mpr (mul_neg_of_neg_of_pos hneg hleft))

/-- **Soundness of `isConvex`**: polygons that turn both ways are rejected, but for
those whose corner at the last vertex does not turn. -/
theorem isConvex_sound_iff (polygon : List (Vector2 K)) :
    (TurnsBothWays polygon → isConvex polygon = false) ↔
      (polygon.length < 3 ∨ ¬ TurnsBothWays polygon ∨ corner polygon (polygon.length - 1) ≠ 0) := by
  constructor
  · intro hsound
    by_contra hnot
    push Not at hnot
    obtain ⟨hlength, hboth, hlast⟩ := hnot
    have hconvex : isConvex polygon = true := by
      refine (isConvex_iff polygon).mpr ⟨hlength, fun m _ => ?_⟩
      rw [hlast, mul_zero]
    rw [hsound hboth] at hconvex
    cases hconvex
  · rintro (hlength | hone | hlast) hboth
    · unfold isConvex
      exact if_pos hlength
    · exact absurd hboth hone
    · exact rejects_of_turns hboth hlast

/-- A notch, and a last vertex in the middle of an edge. -/
def notched : List (Vector2 ℚ) := [⟨0, 0⟩, ⟨4, 0⟩, ⟨1, 1⟩, ⟨0, 4⟩, ⟨0, 2⟩]

theorem notched_convex : TurnsBothWays notched ∧ isConvex notched = true := by
  refine ⟨⟨⟨1, ?_, ?_⟩, 2, ?_, ?_⟩, ?_⟩ <;> decide +kernel

/-- The same polygon, from another vertex on. -/
def notchedRotated : List (Vector2 ℚ) := [⟨0, 2⟩, ⟨0, 0⟩, ⟨4, 0⟩, ⟨1, 1⟩, ⟨0, 4⟩]

theorem notchedRotated_not_convex : isConvex notchedRotated = false := by
  refine (isConvex_sound_iff notchedRotated).mpr (.inr (.inr ?_)) ⟨⟨2, ?_, ?_⟩, 3, ?_, ?_⟩
  all_goals decide +kernel

end Lhatove.Math
