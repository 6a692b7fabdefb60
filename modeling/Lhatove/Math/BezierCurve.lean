import Lhatove.Lib.Subdivision
import Lhatove.Math.Polygons

/-!
# Curves

`BezierCurve::evaluate` and `BezierCurve::getSegment`, in exact arithmetic.

- `moveFirst`: the inner loops, which move points in place;
- `evaluate_eq`, `takeLeft_spec`, `takeRight_spec`: the loops make the rounds of the
  library;
- `getSegment_evaluate`: a segment is the curve between its parameters.
-/

namespace Lhatove.Math

open List

section Vectors

variable {K : Type} [Field K]

/-- `Vector2::operator +` -/
instance : Add (Vector2 K) := ⟨fun v w => ⟨v.x + w.x, v.y + w.y⟩⟩

/-- `Vector2::operator -` -/
instance : Sub (Vector2 K) := ⟨fun v w => ⟨v.x - w.x, v.y - w.y⟩⟩

/-- `Vector2::operator *` -/
instance : SMul K (Vector2 K) := ⟨fun s v => ⟨v.x * s, v.y * s⟩⟩

instance : Zero (Vector2 K) := ⟨⟨0, 0⟩⟩

instance : Neg (Vector2 K) := ⟨fun v => ⟨-v.x, -v.y⟩⟩

instance : AddCommGroup (Vector2 K) where
  add_assoc u v w := congrArg₂ Vector2.mk (add_assoc ..) (add_assoc ..)
  zero_add v := congrArg₂ Vector2.mk (zero_add _) (zero_add _)
  add_zero v := congrArg₂ Vector2.mk (add_zero _) (add_zero _)
  add_comm v w := congrArg₂ Vector2.mk (add_comm ..) (add_comm ..)
  neg_add_cancel v := congrArg₂ Vector2.mk (neg_add_cancel _) (neg_add_cancel _)
  sub_eq_add_neg v w := congrArg₂ Vector2.mk (sub_eq_add_neg ..) (sub_eq_add_neg ..)
  nsmul := nsmulRec
  zsmul := zsmulRec

instance : Module K (Vector2 K) where
  one_smul v := congrArg₂ Vector2.mk (mul_one _) (mul_one _)
  mul_smul s t v :=
    have hmul (a : K) : a * (s * t) = a * t * s := by ring
    congrArg₂ Vector2.mk (hmul _) (hmul _)
  smul_zero s := congrArg₂ Vector2.mk (zero_mul s) (zero_mul s)
  smul_add s v w := congrArg₂ Vector2.mk (add_mul ..) (add_mul ..)
  add_smul s t v := congrArg₂ Vector2.mk (mul_add ..) (mul_add ..)
  zero_smul v := congrArg₂ Vector2.mk (mul_zero _) (mul_zero _)

end Vectors

/-! ## The curve -/

section Curve

variable {K : Type} [Field K]

/-- An inner loop: each of the first `m` points is moved, the first one first. -/
def moveFirst (move : Vector2 K → Vector2 K → Vector2 K) (m : Nat) (points : List (Vector2 K)) :
    List (Vector2 K) :=
  (List.range m).foldl (fun points i =>
    points.set i (move (vertexAt points i) (vertexAt points (i + 1)))) points

/-- A point moved towards the next one, as in `evaluate`. -/
def mixed (t : K) (p q : Vector2 K) : Vector2 K := (1 - t) • p + t • q

/-- A point moved towards the next one, as in `getSegment`. -/
def advanced (t : K) (p q : Vector2 K) : Vector2 K := p + t • (q - p)

/-- A loop of `getSegment`: a point is taken, and the others are moved. -/
def takePart (take : List (Vector2 K) → Nat → Vector2 K) (t : K) (points : List (Vector2 K)) :
    List (Vector2 K) :=
  let done := (List.range' 1 (points.length - 1)).foldl (fun (s : List (Vector2 K) × _) step =>
    (moveFirst (advanced t) (s.1.length - step) s.1, s.2 ++ [take s.1 step])) (points, [])
  done.2 ++ [vertexAt done.1 0]

/-- The first subdivision of `getSegment`, which takes `left`. -/
def takeLeft (t : K) (points : List (Vector2 K)) : List (Vector2 K) :=
  takePart (fun points _ => vertexAt points 0) t points

/-- The second subdivision of `getSegment`, which takes `right`. -/
def takeRight (t : K) (left : List (Vector2 K)) : List (Vector2 K) :=
  takePart (fun left step => vertexAt left (left.length - step)) t left

def invalidEvaluation : String := "Invalid evaluation parameter: must be between 0 and 1"

def notEnoughPoints : String := "Invalid Bezier curve: Not enough control points."

def invalidSegment : String := "Invalid segment parameters: must be between 0 and 1"

def segmentOrder : String := "Invalid segment parameters: t1 must be smaller than t2"

variable [LinearOrder K]

/-- `BezierCurve::evaluate` -/
def evaluate (controlPoints : List (Vector2 K)) (t : K) : Except String (Vector2 K) :=
  if t < 0 ∨ 1 < t then .error invalidEvaluation
  else if controlPoints.length < 2 then .error notEnoughPoints
  else
    let points := (List.range' 1 (controlPoints.length - 1)).foldl (fun points step =>
      moveFirst (mixed t) (controlPoints.length - step) points) controlPoints
    .ok (vertexAt points 0)

/-- `BezierCurve::getSegment` -/
def getSegment (controlPoints : List (Vector2 K)) (t1 t2 : K) :
    Except String (List (Vector2 K)) :=
  if t1 < 0 ∨ 1 < t2 then .error invalidSegment
  else if t2 ≤ t1 then .error segmentOrder
  else
    let left := takeLeft t2 controlPoints
    .ok (takeRight (t1 / t2) left).reverse

end Curve

/-! ## The loops -/

section Rounds

variable {K : Type} [Field K]

theorem mixed_eq_blend (t : K) (p : Nat → Vector2 K) (i : Nat) :
    mixed t (p i) (p (i + 1)) = blend t p i := rfl

theorem advanced_eq_mixed (t : K) : advanced t = mixed t := by
  funext p q
  rw [advanced, mixed]
  module

theorem length_moveFirst (move : Vector2 K → Vector2 K → Vector2 K) (m : Nat)
    (points : List (Vector2 K)) : (moveFirst move m points).length = points.length := by
  induction m with
  | zero => rfl
  | succ m ih =>
    rw [moveFirst, range_succ, foldl_append, foldl_cons, foldl_nil,
      length_set]
    exact ih

theorem vertexAt_set {points : List (Vector2 K)} {i : Nat} (hi : i < points.length)
    (v : Vector2 K) (j : Nat) :
    vertexAt (points.set i v) j = if j = i then v else vertexAt points j := by
  rcases eq_or_ne j i with rfl | hne
  · simp [vertexAt, hi]
  · simp [vertexAt, hne, hne.symm]

/-- **An inner loop** moves the points that come first, each towards what the next one was. -/
theorem vertexAt_moveFirst (move : Vector2 K → Vector2 K → Vector2 K) {m : Nat}
    {points : List (Vector2 K)} (hm : m ≤ points.length) (j : Nat) :
    vertexAt (moveFirst move m points) j =
      if j < m then move (vertexAt points j) (vertexAt points (j + 1)) else vertexAt points j := by
  induction m generalizing j with
  | zero => rfl
  | succ m ih =>
    have ih := ih (by omega)
    have hstep : moveFirst move (m + 1) points = (moveFirst move m points).set m
        (move (vertexAt (moveFirst move m points) m)
          (vertexAt (moveFirst move m points) (m + 1))) := by
      rw [moveFirst, range_succ, foldl_append, foldl_cons, foldl_nil]
      rfl
    rw [hstep, vertexAt_set (by rw [length_moveFirst]; omega), ih, ih, ih]
    rcases Nat.lt_trichotomy j m with hlt | rfl | hgt
    · rw [if_neg hlt.ne, if_pos hlt, if_pos (by omega)]
    · rw [if_pos rfl, if_neg (lt_irrefl j), if_neg (by omega), if_pos (by omega)]
    · rw [if_neg hgt.ne', if_neg (by omega), if_neg (by omega)]

/-- The points after some rounds, as far as they still count. -/
structure After (t : K) (points : List (Vector2 K)) (k : Nat) (now : List (Vector2 K)) : Prop where
  length : now.length = points.length
  at_ : ∀ j, j + k < points.length → vertexAt now j = (blend t ^ k) (vertexAt points) j

namespace After

variable {t : K} {points now : List (Vector2 K)} {k : Nat}

theorem zero (t : K) (points : List (Vector2 K)) : After t points 0 points :=
  ⟨rfl, fun _ _ => rfl⟩

/-- **One round.** -/
theorem succ (h : After t points k now) :
    After t points (k + 1) (moveFirst (mixed t) (points.length - (k + 1)) now) := by
  refine ⟨(length_moveFirst ..).trans h.length, fun j hj => ?_⟩
  rw [vertexAt_moveFirst _ (by rw [h.length]; omega), if_pos (by omega), mixed_eq_blend,
    pow_succ', Module.End.mul_apply, blend_apply, blend_apply, h.at_ j (by omega),
    h.at_ (j + 1) (by omega)]

theorem rounds (t : K) (points : List (Vector2 K)) (k : Nat) :
    After t points k ((range' 1 k).foldl (fun now step =>
      moveFirst (mixed t) (points.length - step) now) points) := by
  induction k with
  | zero => exact .zero t points
  | succ k ih =>
    rw [range'_1_concat, foldl_append, foldl_cons, foldl_nil, Nat.add_comm 1 k]
    exact ih.succ

end After

/-- **The loops of `getSegment`**: a point is taken in each round. -/
theorem takePart_spec {take : List (Vector2 K) → Nat → Vector2 K} {t : K}
    {points : List (Vector2 K)} {part : Nat → Vector2 K}
    (htake : ∀ k now, k + 1 < points.length → After t points k now → take now (k + 1) = part k)
    (hlast : (blend t ^ (points.length - 1)) (vertexAt points) 0 = part (points.length - 1))
    (hpos : 0 < points.length) :
    takePart take t points = (List.range points.length).map part := by
  have hrun : ∀ k, k < points.length → ∃ now, After t points k now ∧
      (range' 1 k).foldl (fun (s : List (Vector2 K) × _) step =>
        (moveFirst (advanced t) (s.1.length - step) s.1, s.2 ++ [take s.1 step])) (points, []) =
        (now, (List.range k).map part) := by
    intro k
    induction k with
    | zero => exact fun _ => ⟨points, .zero t points, rfl⟩
    | succ k ih =>
      intro hk
      obtain ⟨now, hafter, hfold⟩ := ih (by omega)
      refine ⟨_, hafter.succ, ?_⟩
      rw [range'_1_concat, foldl_append, foldl_cons, foldl_nil, hfold,
        Nat.add_comm 1 k, htake k now hk hafter, hafter.length, advanced_eq_mixed,
        range_succ, map_append, map_singleton]
  obtain ⟨now, hafter, hfold⟩ := hrun (points.length - 1) (by omega)
  obtain ⟨n, hn⟩ : ∃ n, points.length = n + 1 := ⟨points.length - 1, by omega⟩
  rw [takePart, hfold]
  dsimp only
  rw [hafter.at_ 0 (by omega), hlast, hn, Nat.add_sub_cancel, range_succ, map_append,
    map_singleton]

theorem vertexAt_map_range {n j : Nat} (part : Nat → Vector2 K) (h : j < n) :
    vertexAt ((List.range n).map part) j = part j := by
  simp [vertexAt, h]

theorem takeLeft_eq (t : K) {points : List (Vector2 K)} (h : 0 < points.length) :
    takeLeft t points = (List.range points.length).map (leftPart t (vertexAt points)) :=
  takePart_spec (fun _ _ hk hafter => hafter.at_ 0 (by omega)) rfl h

theorem takeRight_eq (t : K) {left : List (Vector2 K)} (h : 0 < left.length) :
    takeRight t left =
      ((List.range left.length).map (rightPart (left.length - 1) t (vertexAt left))).reverse := by
  rw [← map_reverse, range_eq_range', reverse_range', map_map]
  refine takePart_spec (fun k now hk hafter => ?_) ?_ h
  · rw [hafter.length, hafter.at_ _ (by omega), Function.comp_apply, rightPart,
      show left.length - 1 - (0 + left.length - 1 - k) = k by omega,
      show 0 + left.length - 1 - k = left.length - (k + 1) by omega]
  · rw [Function.comp_apply, rightPart,
      show 0 + left.length - 1 - (left.length - 1) = 0 by omega, Nat.sub_zero]

end Rounds

/-! ## Segments -/

section Segments

variable {K : Type} [Field K] [LinearOrder K]

/-- **`evaluate`** is the value of the curve. -/
theorem evaluate_eq {controlPoints : List (Vector2 K)} {t : K} (h : 2 ≤ controlPoints.length)
    (h0 : 0 ≤ t) (h1 : t ≤ 1) :
    evaluate controlPoints t =
      .ok ((blend t ^ (controlPoints.length - 1)) (vertexAt controlPoints) 0) := by
  have hpoints := (After.rounds t controlPoints (controlPoints.length - 1)).at_ 0 (by omega)
  rw [evaluate, if_neg (by rintro (hlt | hlt) <;> exact absurd hlt (not_lt.mpr (by assumption))),
    if_neg (by omega)]
  exact congrArg Except.ok hpoints

variable [IsStrictOrderedRing K]

/-- **A segment is the curve between its parameters.** -/
theorem getSegment_evaluate {controlPoints : List (Vector2 K)} {t1 t2 s : K}
    (hpoints : 2 ≤ controlPoints.length) (ht1 : 0 ≤ t1) (ht : t1 < t2) (ht2 : t2 ≤ 1)
    (hs0 : 0 ≤ s) (hs1 : s ≤ 1) :
    ∃ segment v, getSegment controlPoints t1 t2 = .ok segment ∧ evaluate segment s = .ok v ∧
      evaluate controlPoints (t1 + s * (t2 - t1)) = .ok v := by
  have hpos : 0 < controlPoints.length := by omega
  have hleft := takeLeft_eq t2 hpos
  have hlength : (takeLeft t2 controlPoints).length = controlPoints.length := by
    rw [hleft, length_map, length_range]
  have hright := takeRight_eq (t1 / t2) (hlength ▸ hpos)
  have hrun : getSegment controlPoints t1 t2 = .ok (takeRight (t1 / t2)
      (takeLeft t2 controlPoints)).reverse := by
    rw [getSegment, if_neg (by rintro (hlt | hlt) <;> exact absurd hlt (not_lt.mpr (by assumption))),
      if_neg (not_le.mpr ht)]
  have hparam : ((1 - s) * (t1 / t2) + s) * t2 = t1 + s * (t2 - t1) := by
    have hne : t2 ≠ 0 := (lt_of_le_of_lt ht1 ht).ne'
    field_simp
    ring
  have hlow : 0 ≤ t1 + s * (t2 - t1) := add_nonneg ht1 (mul_nonneg hs0 (sub_nonneg.mpr ht.le))
  have hhigh : t1 + s * (t2 - t1) ≤ 1 := by nlinarith
  rw [hright, reverse_reverse] at hrun
  refine ⟨_, _, hrun, evaluate_eq ?_ hs0 hs1, ?_⟩
  · rw [length_map, length_range]
    omega
  rw [evaluate_eq hpoints hlow hhigh, length_map, length_range, hlength,
    blend_pow_congr (fun i _ hi => vertexAt_map_range _ (by omega)), rightPart_value,
    hleft, blend_pow_congr (fun i _ hi => vertexAt_map_range _ (by omega)), leftPart_value, hparam]

/-- A curve of three points, and its second half. -/
def arc : List (Vector2 ℚ) := [⟨0, 0⟩, ⟨2, 4⟩, ⟨4, 0⟩]

theorem getSegment_evaluate_arc : ∃ segment v, getSegment arc (1 / 2) 1 = .ok segment ∧
    evaluate segment (1 / 2) = .ok v ∧ evaluate arc (1 / 2 + 1 / 2 * (1 - 1 / 2)) = .ok v :=
  getSegment_evaluate (by decide) (by decide +kernel) (by decide +kernel) le_rfl
    (by decide +kernel) (by decide +kernel)

example : getSegment arc (1 / 2) 1 = .ok [⟨2, 2⟩, ⟨3, 2⟩, ⟨4, 0⟩] := by decide +kernel

end Segments

end Lhatove.Math
