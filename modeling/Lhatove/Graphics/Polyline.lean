import Lhatove.Graphics.BatchedDraws
import Lhatove.Graphics.DisplayState
import Lhatove.Math.Polygons

/-!
# Lines

`Polyline::render` and `Polyline::draw`, with the three ways to join segments.

- Coordinates are of any type that has the operations of `float`; nothing is asked
  of these.
- `render` leaves the vertices of the sleeve, and behind them, where the line is
  smooth, those of the overdraw. Between both lie some that cover nothing.
- `draw` cuts them into chunks. `int` is 32 bits wide; where one overflows, nothing
  is known of what happens, and the result is `none`.
-/

namespace Lhatove.Graphics

open Math (Vector2)

/-! ## Vectors -/

/-- What lines use of `float` besides its operators. -/
structure Floats (F : Type) where
  sqrt : F → F
  fabs : F → F
  /-- `LINES_PARALLEL_EPS` -/
  parallelEps : F
  /-- `0.3f` -/
  overdrawShare : F

section Vectors

variable {F : Type} [Add F] [Sub F] [Mul F] [Div F] [Neg F] [Zero F] [LT F] [DecidableLT F]

namespace Line

/-- `operator +` -/
def plus (v w : Vector2 F) : Vector2 F := ⟨v.x + w.x, v.y + w.y⟩

/-- `operator -` -/
def minus (v w : Vector2 F) : Vector2 F := ⟨v.x - w.x, v.y - w.y⟩

/-- `operator -`, of one vector. -/
def negated (v : Vector2 F) : Vector2 F := ⟨-v.x, -v.y⟩

/-- `operator *` -/
def times (v : Vector2 F) (s : F) : Vector2 F := ⟨v.x * s, v.y * s⟩

def dot (v w : Vector2 F) : F := v.x * w.x + v.y * w.y

def cross (v w : Vector2 F) : F := v.x * w.y - v.y * w.x

def getLength (fl : Floats F) (v : Vector2 F) : F := fl.sqrt (v.x * v.x + v.y * v.y)

def getNormal (v : Vector2 F) (scale : F) : Vector2 F := ⟨-v.y * scale, v.x * scale⟩

/-- `normalize` -/
def normalized (fl : Floats F) (v : Vector2 F) (length : F) : Vector2 F :=
  if 0 < getLength fl v then times v (length / getLength fl v) else v

end Line

end Vectors

/-! ## Joins -/

/-- The mode in which the subclass for a join has its triangles. -/
def LineJoin.triangleMode : LineJoin → TriangleIndexMode
  | .none => .quads
  | .miter => .strip
  | .bevel => .strip

/-- The segment before a point. -/
structure Segment (F : Type) where
  segment : Vector2 F
  segmentLength : F
  segmentNormal : Vector2 F

/-- The arrays of `render`, as far as they are filled. -/
structure Sleeve (F : Type) extends Segment F where
  anchors : List (Vector2 F)
  normals : List (Vector2 F)

/-- `push_back`: `pointA`, once for each normal. -/
def Sleeve.push {F : Type} (pointA : Vector2 F) (pushed : List (Vector2 F)) (s : Sleeve F) :
    Sleeve F :=
  { s with
    anchors := s.anchors ++ List.replicate pushed.length pointA
    normals := s.normals ++ pushed }

open Line

section Edges

variable {F : Type} [Add F] [Sub F] [Mul F] [Div F] [Neg F] [Zero F] [LT F] [DecidableLT F] [BEq F]
  (fl : Floats F) (pointA pointB : Vector2 F) (halfWidth : F) (s : Sleeve F)

/-- The segment from `pointA` to `pointB`. -/
def newSegment : Segment F :=
  let segment := minus pointB pointA
  ⟨segment, getLength fl segment, getNormal segment (halfWidth / getLength fl segment)⟩

def renderEdgeNone : Sleeve F :=
  let new := newSegment fl pointA pointB halfWidth
  { s.push pointA [s.segmentNormal, negated s.segmentNormal,
      new.segmentNormal, negated new.segmentNormal] with toSegment := new }

/-- The two normals at a point that the line goes straight through; four where it turns
back, for a quad without size that the strip turns in. -/
def straightNormals (new : Segment F) : List (Vector2 F) :=
  [s.segmentNormal, negated s.segmentNormal] ++
    if dot s.segment new.segment < 0 then [negated s.segmentNormal, s.segmentNormal] else []

/-- Whether the two segments are taken for parallel. -/
def isParallel (new : Segment F) : Bool :=
  decide (fl.fabs (cross s.segment new.segment) / (s.segmentLength * new.segmentLength) <
    fl.parallelEps)

/-- Cramer's rule. -/
def joinNormal (new : Segment F) : Vector2 F :=
  plus s.segmentNormal (times s.segment
    (cross (minus new.segmentNormal s.segmentNormal) new.segment / cross s.segment new.segment))

def renderEdgeMiter : Sleeve F :=
  let new := newSegment fl pointA pointB halfWidth
  if new.segmentLength == 0 then s
  else
    let pushed :=
      if isParallel fl s new then straightNormals s new
      else [joinNormal s new, negated (joinNormal s new)]
    { s.push pointA pushed with toSegment := new }

def renderEdgeBevel : Sleeve F :=
  let new := newSegment fl pointA pointB halfWidth
  let d := joinNormal s new
  let pushed :=
    if isParallel fl s new then straightNormals s new
    else if 0 < cross s.segment new.segment then
      [d, negated s.segmentNormal, d, negated new.segmentNormal]
    else [s.segmentNormal, negated d, new.segmentNormal, negated d]
  { s.push pointA pushed with toSegment := new }

/-- `renderEdge` of the subclass. -/
def LineJoin.renderEdge : LineJoin → Sleeve F
  | .none => renderEdgeNone fl pointA pointB halfWidth s
  | .miter => renderEdgeMiter fl pointA pointB halfWidth s
  | .bevel => renderEdgeBevel fl pointA pointB halfWidth s

end Edges

/-! ## The line -/

/-- The points of a line: at least two. -/
structure Coords (F : Type) where
  first : Vector2 F
  second : Vector2 F
  rest : List (Vector2 F)

namespace Coords

variable {F : Type} (coords : Coords F)

def toList : List (Vector2 F) := coords.first :: coords.second :: coords.rest

/-- `coords[count - 1]` -/
def last : Vector2 F := (coords.second :: coords.rest).getLast (List.cons_ne_nil _ _)

/-- `coords[count - 2]` -/
def beforeLast : Vector2 F := coords.toList.dropLast.getLast (by simp [toList])

/-- `is_looping` -/
def isLooping [BEq F] : Bool :=
  coords.first.x == coords.last.x && coords.first.y == coords.last.y

end Coords

/-- A `Polyline`; `overdraw` is where the pointer of that name points to in `vertices`. -/
structure Polyline (F : Type) where
  join : LineJoin
  vertices : List (Vector2 F)
  overdraw : Option Nat
  vertex_count : Nat
  overdraw_vertex_count : Nat
  triangle_mode : TriangleIndexMode
  overdraw_vertex_start : Nat

section Render

variable {F : Type} [Add F] [Sub F] [Mul F] [Div F] [Neg F] [Zero F] [LT F] [DecidableLT F] [BEq F]
  (fl : Floats F) (join : LineJoin)

/-- The edges of the line, and the last one, where it closes or ends. -/
def sleeve (coords : Coords F) (halfwidth : F) : Sleeve F :=
  let segment :=
    if coords.isLooping then minus coords.first coords.beforeLast
    else minus coords.second coords.first
  let segmentLength := getLength fl segment
  let start : Sleeve F :=
    ⟨⟨segment, segmentLength, getNormal segment (halfwidth / segmentLength)⟩, [], []⟩
  let edges := coords.toList.zip coords.toList.tail
  let s := edges.foldl (fun s e => join.renderEdge fl e.1 e.2 halfwidth s) start
  let pointB := if coords.isLooping then coords.second else plus coords.last s.segment
  join.renderEdge fl coords.last pointB halfwidth s

/-- `calc_overdraw_vertex_count` -/
def calcOverdrawVertexCount (vertex_count : Nat) (is_looping : Bool) : LineJoin → Nat
  | .none => 4 * (vertex_count - 2)
  | .miter | .bevel => 2 * vertex_count + if is_looping then 0 else 2

/-- A point of an array. Before or behind it there is nothing to read. -/
def pointAt (points : List (Vector2 F)) (i : Nat) : Vector2 F := points.getD i ⟨0, 0⟩

/-- `render_overdraw` of lines with joins, into `count` vertices. -/
def renderOverdraw (vertices normals : List (Vector2 F)) (count : Nat) (pixel_size : F)
    (is_looping : Bool) : List (Vector2 F) :=
  let n := normals.length
  let both (k : Nat) :=
    let normal := pointAt normals k
    [pointAt vertices k,
      plus (pointAt vertices k) (times normal (pixel_size / getLength fl normal))]
  let upper := (List.range (n / 2)).flatMap fun i => both (2 * i)
  let lower := (List.range (n / 2)).flatMap fun i => both (n - 2 * i - 1)
  let sides := upper ++ lower ++ List.replicate (count - 4 * (n / 2)) ⟨0, 0⟩
  if is_looping then sides
  else
    let move (spacer : Vector2 F) (i : Nat) (overdraw : List (Vector2 F)) :=
      overdraw.set i (plus (pointAt overdraw i) spacer)
    -- the left edge
    let left := normalized fl (minus (pointAt sides 1) (pointAt sides 3)) pixel_size
    let overdraw := move left (count - 3) (move left 1 sides)
    -- the right edge
    let right := normalized fl
      (minus (pointAt overdraw (n - 1)) (pointAt overdraw (n - 3))) pixel_size
    let overdraw := move right (n + 1) (move right (n - 1) overdraw)
    -- two more triangles close the line at its start
    (overdraw.set (count - 2) (pointAt overdraw 0)).set (count - 1) (pointAt overdraw 1)

/-- `NoneJoinPolyline::render_overdraw`: four quads around each segment. -/
def renderOverdrawNone (vertices : List (Vector2 F)) (count : Nat) (pixel_size : F) :
    List (Vector2 F) :=
  let quads := (List.range ((vertices.length - 2) / 4)).flatMap fun j =>
    let v (k : Nat) := pointAt vertices (4 * j + 2 + k)
    let s := normalized fl (minus (v 0) (v 2)) pixel_size
    let t := normalized fl (minus (v 0) (v 1)) pixel_size
    let corner0 := plus (plus (v 0) s) t
    let corner1 := minus (plus (v 1) s) t
    let corner2 := plus (minus (v 2) s) t
    let corner3 := minus (minus (v 3) s) t
    [v 0, v 1, corner0, corner1, v 1, v 3, corner1, corner3,
      v 3, v 2, corner3, corner2, v 2, v 0, corner2, corner0]
  quads ++ List.replicate (count - quads.length) ⟨0, 0⟩

/-- `render`, up to what the subclasses add. -/
def renderBase (coords : Coords F) (halfwidth pixel_size : F) (draw_overdraw : Bool) :
    Polyline F :=
  let width := if draw_overdraw then halfwidth - pixel_size * fl.overdrawShare else halfwidth
  let s := sleeve fl join coords width
  let vertex_count := s.normals.length
  let core := List.zipWith plus s.anchors s.normals
  if draw_overdraw then
    let count := calcOverdrawVertexCount vertex_count coords.isLooping join
    let overdraw :=
      if join = .none then renderOverdrawNone fl core count pixel_size
      else renderOverdraw fl core s.normals count pixel_size coords.isLooping
    -- two degenerate vertices break the strip up
    let between :=
      if join.triangleMode = .strip then
        if 0 < vertex_count then
          [pointAt core (vertex_count - 1), pointAt overdraw 0]
        else [⟨0, 0⟩, ⟨0, 0⟩]
      else []
    { join
      vertices := core ++ between ++ overdraw
      overdraw := some (vertex_count + between.length)
      vertex_count
      overdraw_vertex_count := count
      triangle_mode := join.triangleMode
      overdraw_vertex_start := vertex_count + between.length }
  else
    { join
      vertices := core
      overdraw := none
      vertex_count
      overdraw_vertex_count := 0
      triangle_mode := join.triangleMode
      overdraw_vertex_start := 0 }

/-- `NoneJoinPolyline::render`, after `Polyline::render`: the first and the last two vertices
go, and four that cover nothing stay behind the others. -/
def discardEnds (line : Polyline F) : Polyline F :=
  { line with
    vertices := (line.vertices.drop 2).take (line.vertex_count - 4) ++
      List.replicate 4 ⟨0, 0⟩ ++ line.vertices.drop line.vertex_count
    vertex_count := line.vertex_count - 4 }

/-- `render` of the subclass. -/
def render (coords : Coords F) (halfwidth pixel_size : F) (draw_overdraw : Bool) : Polyline F :=
  let line := renderBase fl join coords halfwidth pixel_size draw_overdraw
  match join with
  | .none => discardEnds line
  | .miter | .bevel => line

end Render

/-! ## Drawing -/

structure Color32 where
  r : UInt8
  g : UInt8
  b : UInt8
  a : UInt8
  deriving DecidableEq

/-- `STf_RGBAub` -/
structure STfRGBAub (F : Type) where
  s : F
  t : F
  color : Color32

/-- The current transform: whether it is one in two dimensions, and what `transformXY` or
`transformXY0` makes of a vertex. -/
structure LineTransform (F P : Type) where
  is2D : Bool
  transform : Vector2 F → P

/-- `formats` -/
def twoFormats (first second : CommonFormat) : Fin 2 → CommonFormat
  | ⟨0, _⟩ => first
  | ⟨_ + 1, _⟩ => second

def getSinglePositionFormat (is2D : Bool) : CommonFormat := if is2D then .XYf else .XYZf

/-- An `int`, if the number is one. -/
def toInt (n : Int) : Option Int := if -2 ^ 31 ≤ n ∧ n < 2 ^ 31 then some n else none

/-- What `draw` does in one turn: the request, and what it writes where that told it to. The
attributes are known by their index from the start of the memory on. -/
structure LineChunk (Texture F P : Type) where
  vertexStart : Int
  cmd : BatchedDrawCommand Texture
  positions : List P
  attributes : List (Int × STfRGBAub F)

/-- `maxvertices`: `LOVE_UINT16_MAX - 3` -/
def maxVertices : Int := 65532

namespace Polyline

variable {Texture F P : Type} [Zero F] (line : Polyline F)

/-- The alpha of an overdraw vertex, in `fill_color_array` of the class. -/
def overdrawAlpha (alpha : UInt8) (i : Nat) : UInt8 :=
  match line.join with
  | .none => alpha * if i &&& 3 < 2 then 1 else 0
  | .miter | .bevel => alpha * .ofNat ((i + 1) % 2)

/-- `fill_color_array`, from `attributes + start` on. -/
def fillColorArray (color : Color32) (start : Int) (count : Nat) : List (Int × STfRGBAub F) :=
  (List.range count).map fun (i : Nat) =>
    (start + i, ⟨0, 0, { color with a := line.overdrawAlpha color.a i }⟩)

def advance : Int := if line.triangle_mode = .strip then maxVertices - 2 else maxVertices

/-- `total_vertex_count` -/
def totalVertexCount : Option Int :=
  match line.overdraw with
  | none => some (wrapInt line.vertex_count)
  | some _ => toInt (wrapInt line.overdraw_vertex_start + wrapInt line.overdraw_vertex_count)

/-- The attributes of the overdraw in a chunk of `vertexCount` vertices. -/
def overdrawAttributes (color : Color32) (vertex_start vertexCount draw_rough_count : Int) :
    Option (List (Int × STfRGBAub F)) :=
  match line.overdraw with
  | none => some []
  | some _ => do
    let draw_remaining_count ← toInt (vertexCount - draw_rough_count)
    let draw_overdraw_begin ← toInt (wrapInt line.overdraw_vertex_start - vertex_start)
    let draw_overdraw_end ← toInt (draw_overdraw_begin + wrapInt line.overdraw_vertex_count)
    let draw_overdraw_begin := max 0 draw_overdraw_begin
    let rest ← toInt (draw_overdraw_end - draw_overdraw_begin)
    let draw_overdraw_count := min draw_remaining_count rest
    if 0 < draw_overdraw_count then
      some (line.fillColorArray color draw_overdraw_begin draw_overdraw_count.toNat)
    else some []

/-- One turn of the loop. -/
def drawChunk (t : LineTransform F P) (color : Color32) (total vertex_start : Int) :
    Option (LineChunk Texture F P) := do
  let vertexCount := min maxVertices (total - vertex_start)
  let left ← toInt (wrapInt line.vertex_count - vertex_start)
  let draw_rough_count := min vertexCount left
  let rough := (List.range draw_rough_count.toNat).map fun (i : Nat) => ((i : Int), ⟨0, 0, color⟩)
  let overdraw ← line.overdrawAttributes color vertex_start vertexCount draw_rough_count
  some {
    vertexStart := vertex_start
    cmd := {
      primitiveMode := .triangles
      formats := twoFormats (getSinglePositionFormat t.is2D) .STf_RGBAub
      indexMode := line.triangle_mode
      vertexCount := vertexCount
      texture := none
      standardShaderType := .default }
    positions :=
      ((line.vertices.drop vertex_start.toNat).take vertexCount.toNat).map t.transform
    attributes := rough ++ overdraw }

end Polyline

/-- A loop over the chunks of `total` vertices, of which each begins `advance` behind the one
before. -/
def chunkLoop {Chunk : Type} (chunk : Int → Option Chunk) (total advance : Int)
    (hpos : 0 < advance) (vertex_start : Int) : Option (List Chunk) :=
  if vertex_start < total then do
    let c ← chunk vertex_start
    if vertex_start + advance < 2 ^ 31 then
      let rest ← chunkLoop chunk total advance hpos (vertex_start + advance)
      some (c :: rest)
    else none
  else some []
termination_by (total - vertex_start).toNat
decreasing_by omega

theorem Polyline.advance_pos {F : Type} (line : Polyline F) : 0 < line.advance := by
  rw [advance]
  split_ifs
  · decide
  · decide

/-- `Polyline::draw` -/
def Polyline.draw {Texture F P : Type} [Zero F] (line : Polyline F) (t : LineTransform F P)
    (color : Color32) : Option (List (LineChunk Texture F P)) := do
  let total ← line.totalVertexCount
  chunkLoop (line.drawChunk t color total) total line.advance line.advance_pos 0

end Lhatove.Graphics
