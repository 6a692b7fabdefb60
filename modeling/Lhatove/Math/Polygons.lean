import Mathlib.Tactic

/-!
# Polygons

`triangulate` and `isConvex` of `love::math`, in exact arithmetic: coordinates are
elements of an ordered field.

- The linked list of `triangulate` is two vectors of indices; a vertex of the
  polygon is known by its index, where the code compares addresses.
- The loop over the ears is the recursion `clipEars`. It ends since each round
  leaves a vertex out, or skips one of as many as there are.
-/

namespace Lhatove.Math

/-- `love::Vector2` -/
structure Vector2 (K : Type) where
  x : K
  y : K
  deriving DecidableEq

/-- `love::math::Triangle` -/
structure Triangle (K : Type) where
  a : Vector2 K
  b : Vector2 K
  c : Vector2 K
  deriving DecidableEq

section Orientation

variable {K : Type} [Field K] [LinearOrder K]

/-- `Vector2::operator -` -/
def Vector2.sub (v w : Vector2 K) : Vector2 K := ⟨v.x - w.x, v.y - w.y⟩

/-- `Vector2::cross` -/
def Vector2.cross (v w : Vector2 K) : K := v.x * w.y - v.y * w.x

/-- `det(b-a, c-a)` -/
def det (a b c : Vector2 K) : K := (b.x - a.x) * (c.y - a.y) - (b.y - a.y) * (c.x - a.x)

/-- `is_oriented_ccw` -/
def isOrientedCcw (a b c : Vector2 K) : Bool := decide (0 ≤ det a b c)

/-- `on_same_side` -/
def onSameSide (a b c d : Vector2 K) : Bool :=
  let px := d.x - c.x
  let py := d.y - c.y
  let l := px * (a.y - c.y) - py * (a.x - c.x)
  let m := px * (b.y - c.y) - py * (b.x - c.x)
  decide (0 ≤ l * m)

/-- `point_in_triangle` -/
def pointInTriangle (p a b c : Vector2 K) : Bool :=
  onSameSide p a b c && onSameSide p b a c && onSameSide p c a b

/-- `polygon[i]`, for an index of the polygon. -/
def vertexAt (polygon : List (Vector2 K)) (i : Nat) : Vector2 K := polygon.getD i ⟨0, 0⟩

/-- `any_point_in_triangle` -/
def anyPointInTriangle (polygon : List (Vector2 K)) (vertices : List Nat) (a b c : Nat) : Bool :=
  vertices.any fun p => p != a && p != b && p != c &&
    pointInTriangle (vertexAt polygon p) (vertexAt polygon a) (vertexAt polygon b)
      (vertexAt polygon c)

/-- `is_ear` -/
def isEar (polygon : List (Vector2 K)) (a b c : Nat) (vertices : List Nat) : Bool :=
  isOrientedCcw (vertexAt polygon a) (vertexAt polygon b) (vertexAt polygon c) &&
    !anyPointInTriangle polygon vertices a b c

/-! ## Triangulation -/

def notAPolygon : String := "Not a polygon"

def cannotTriangulate : String := "Cannot triangulate polygon."

/-- The index of the leftmost vertex, of those the lowest: `idx_lm`. -/
def leftmost (polygon : List (Vector2 K)) : Nat :=
  (List.range polygon.length).foldl (fun lm i =>
    let l := vertexAt polygon lm
    let p := vertexAt polygon i
    if p.x < l.x ∨ (p.x = l.x ∧ p.y < l.y) then i else lm) 0

/-- `next_idx` at first. -/
def nextIdx (n i : Nat) : Nat := if i + 1 = n then 0 else i + 1

/-- `prev_idx` at first. -/
def prevIdx (n i : Nat) : Nat := if i = 0 then n - 1 else i - 1

/-- What the loop of `triangulate` changes. -/
structure Clipping (K : Type) where
  nextIdx : Nat → Nat
  prevIdx : Nat → Nat
  concaveVertices : List Nat
  triangles : List (Triangle K)
  nVertices : Nat
  current : Nat
  skipped : Nat

/-- The triangle at the current vertex. -/
def Clipping.triangle (polygon : List (Vector2 K)) (s : Clipping K) : Triangle K :=
  ⟨vertexAt polygon (s.prevIdx s.current), vertexAt polygon s.current,
    vertexAt polygon (s.nextIdx s.current)⟩

/-- The ear at the current vertex is cut off. -/
def Clipping.clip (polygon : List (Vector2 K)) (s : Clipping K) : Clipping K where
  nextIdx := Function.update s.nextIdx (s.prevIdx s.current) (s.nextIdx s.current)
  prevIdx := Function.update s.prevIdx (s.nextIdx s.current) (s.prevIdx s.current)
  concaveVertices := s.concaveVertices.filter (· ≠ s.current)
  triangles := s.triangles ++ [s.triangle polygon]
  nVertices := s.nVertices - 1
  current := s.nextIdx s.current
  skipped := 0

/-- There is no ear at the current vertex. -/
def Clipping.skip (s : Clipping K) : Clipping K :=
  { s with current := s.nextIdx s.current, skipped := s.skipped + 1 }

/-- Whether there is an ear at the current vertex. -/
def Clipping.atEar (polygon : List (Vector2 K)) (s : Clipping K) : Bool :=
  isEar polygon (s.prevIdx s.current) s.current (s.nextIdx s.current) s.concaveVertices

/-- The loop of `triangulate`, and what follows it. -/
def clipEars (polygon : List (Vector2 K)) (s : Clipping K) : Except String (List (Triangle K)) :=
  if 3 < s.nVertices then
    if s.atEar polygon = true then clipEars polygon (s.clip polygon)
    else if s.nVertices < s.skipped + 1 then .error cannotTriangulate
    else clipEars polygon s.skip
  else .ok (s.triangles ++ [s.triangle polygon])
  termination_by (s.nVertices, s.nVertices + 1 - s.skipped)
  decreasing_by
  · apply Prod.Lex.left
    show s.nVertices - 1 < s.nVertices
    omega
  · apply Prod.Lex.right
    show s.nVertices + 1 - (s.skipped + 1) < s.nVertices + 1 - s.skipped
    omega

/-- Whether the leftmost vertex turns the right way. -/
def expectedWinding (polygon : List (Vector2 K)) : Bool :=
  isOrientedCcw (vertexAt polygon (prevIdx polygon.length (leftmost polygon)))
    (vertexAt polygon (leftmost polygon))
    (vertexAt polygon (nextIdx polygon.length (leftmost polygon)))

/-- What `triangulate` starts its loop with: the two vectors are swapped if the
winding is not the expected one. -/
def startClipping (polygon : List (Vector2 K)) : Clipping K :=
  let n := polygon.length
  let next := if expectedWinding polygon = true then nextIdx n else prevIdx n
  let prev := if expectedWinding polygon = true then prevIdx n else nextIdx n
  { nextIdx := next
    prevIdx := prev
    concaveVertices := (List.range n).filter fun i =>
      !isOrientedCcw (vertexAt polygon (prev i)) (vertexAt polygon i) (vertexAt polygon (next i))
    triangles := []
    nVertices := n
    current := 1
    skipped := 0 }

def triangulate (polygon : List (Vector2 K)) : Except String (List (Triangle K)) :=
  if polygon.length < 3 then .error notAPolygon
  else if polygon.length = 3 then
    .ok [⟨vertexAt polygon 0, vertexAt polygon 1, vertexAt polygon 2⟩]
  else clipEars polygon (startClipping polygon)

/-! ## Convexity -/

/-- How the polygon turns from the edge that ends at vertex `j` to the one from
there to vertex `k`; the first begins at vertex `i`. -/
def turnAt (polygon : List (Vector2 K)) (i j k : Nat) : K :=
  ((vertexAt polygon j).sub (vertexAt polygon i)).cross
    ((vertexAt polygon k).sub (vertexAt polygon j))

/-- The rounds of the loop of `isConvex` that are left. -/
def isConvexLoop (polygon : List (Vector2 K)) (winding : K) : (rounds j k : Nat) → Bool
  | 0, _, _ => true
  | rounds + 1, j, k =>
    if turnAt polygon j k (k + 1) * winding < 0 then false
    else isConvexLoop polygon winding rounds k (k + 1)

def isConvex (polygon : List (Vector2 K)) : Bool :=
  let n := polygon.length
  if n < 3 then false
  else isConvexLoop polygon (turnAt polygon (n - 2) (n - 1) 0) (n - 1) (n - 1) 0

end Orientation

end Lhatove.Math
