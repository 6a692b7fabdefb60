import Lhatove.Graphics.FanTriangles
import Lhatove.Graphics.Polyline

/-!
# Chunks of lines

What `Polyline::draw` draws, and when it is the line.

- `Chunks`: the turns of the loop, one behind the other;
- `Polyline.DrawnBy`: what chunks are to be;
- `draw_chunks_iff`: a line is drawn so where it has no overdraw.
-/

namespace Lhatove.Graphics

open List

/-! ## Triangles -/

/-- The triangles that begin with step `i` of an index mode. -/
def stepTriangles (mode : TriangleIndexMode) (i : Nat) : List Corners :=
  match mode with
  | .none => []
  | .strip => [⟨i, i + 1 + i % 2, i + 2 - i % 2⟩]
  | .fan => [⟨0, i + 1, i + 2⟩]
  | .quads => [⟨4 * i, 4 * i + 1, 4 * i + 2⟩, ⟨4 * i + 2, 4 * i + 1, 4 * i + 3⟩]

/-- How many steps an index mode makes over `count` vertices. -/
def stepCount (mode : TriangleIndexMode) (count : Nat) : Nat :=
  match mode with
  | .none => 0
  | .strip => count - 2
  | .fan => count - 2
  | .quads => count / 4

/-- The triangles of a single draw of `count` vertices, as many as there may be. -/
def modeTriangles (mode : TriangleIndexMode) (count : Nat) : List Corners :=
  (List.range (stepCount mode count)).flatMap (stepTriangles mode)

/-- The triangles of a chunk: the indices are those that a request makes for it. -/
def LineChunk.triangles {Texture F P : Type} (c : LineChunk Texture F P) : List Corners :=
  trianglesOf ((fillIndices c.cmd.indexMode 0 (.ofInt 16 c.cmd.vertexCount)).map
    fun i => c.vertexStart + i.toNat)

theorem trianglesOf_append {a : List Int} (b : List Int) (h : 3 ∣ a.length) :
    trianglesOf (a ++ b) = trianglesOf a ++ trianglesOf b := by
  match a, h with
  | [], _ => rfl
  | [_], h => simp at h
  | [_, _], h => simp at h
  | x :: y :: z :: a, h =>
    have hrest : 3 ∣ a.length := by
      simp only [length_cons] at h
      omega
    simp only [cons_append, trianglesOf, trianglesOf_append b hrest]

theorem trianglesOf_flatMap {α : Type} {f : α → List Int} (h : ∀ x, 3 ∣ (f x).length) (l : List α) :
    trianglesOf (l.flatMap f) = l.flatMap fun x => trianglesOf (f x) := by
  induction l with
  | nil => rfl
  | cons x l ih => rw [flatMap_cons, trianglesOf_append _ (h x), ih, flatMap_cons]

theorem index_toNat {k : Nat} (h : k < 65536) : ((0 : Index) + .ofNat 16 k).toNat = k := by
  have hzero : (0 : Index) + .ofNat 16 k = .ofNat 16 k := BitVec.zero_add _
  rw [hzero, BitVec.toNat_ofNat]
  omega

/-- The step that the chunk from `start` on begins with. -/
def stepAt (mode : TriangleIndexMode) (start : Nat) : Nat :=
  match mode with
  | .none => 0
  | .strip => start
  | .fan => 0
  | .quads => start / 4

/-- A strip keeps its winding where a chunk begins with an even vertex, and quads stay whole
where it begins with one. -/
def BeginsStep (mode : TriangleIndexMode) (start : Nat) : Prop :=
  match mode with
  | .none => True
  | .strip => 2 ∣ start
  | .fan => start = 0
  | .quads => 4 ∣ start

theorem ofInt_count {n : Nat} (h : n ≤ 65532) : (BitVec.ofInt 16 (n : Int)).toNat = n :=
  (ofInt_toNat (by omega) (by omega)).trans (by omega)

/-- **The triangles of a chunk** are those of the whole draw, from its first step on. -/
theorem LineChunk.triangles_eq {Texture F P : Type} {c : LineChunk Texture F P} {start n : Nat}
    (hstart : c.vertexStart = start) (hcount : c.cmd.vertexCount = n) (hn : n ≤ 65532)
    (haligned : BeginsStep c.cmd.indexMode start) :
    c.triangles = (range' (stepAt c.cmd.indexMode start) (stepCount c.cmd.indexMode n)).flatMap
      (stepTriangles c.cmd.indexMode) := by
  rw [LineChunk.triangles, hstart, hcount]
  cases hmode : c.cmd.indexMode with
  | none => rfl
  | strip =>
    obtain ⟨k, rfl⟩ : 2 ∣ start := by rwa [hmode] at haligned
    rw [fillIndices, ofInt_count hn, map_flatMap,
      trianglesOf_flatMap (fun _ => ⟨1, rfl⟩), range'_eq_map_range, flatMap_map]
    refine flatMap_congr fun i hi => ?_
    have hi := mem_range.mp hi
    have hstep : ((2 * k + i : Nat) : Int) % 2 = (i % 2 : Nat) := by omega
    simp only [map_cons, map_nil, trianglesOf, stepAt, stepTriangles, hstep,
      index_toNat (show i < 65536 by omega), index_toNat (show i + 1 + i % 2 < 65536 by omega),
      index_toNat (show i + 2 - i % 2 < 65536 by omega)]
    congr 2
    all_goals omega
  | fan =>
    obtain rfl : start = 0 := by rwa [hmode] at haligned
    rw [fillIndices, ofInt_count hn, map_flatMap,
      trianglesOf_flatMap (fun _ => ⟨1, rfl⟩), range'_eq_map_range, range'_eq_map_range,
      flatMap_map, flatMap_map]
    refine flatMap_congr fun i hi => ?_
    have hi := mem_range.mp hi
    simp only [map_cons, map_nil, trianglesOf, stepAt, stepTriangles,
      index_toNat (show 2 + i - 1 < 65536 by omega), index_toNat (show 2 + i < 65536 by omega)]
    congr 2
    all_goals simp
    all_goals omega
  | quads =>
    obtain ⟨k, rfl⟩ : 4 ∣ start := by rwa [hmode] at haligned
    rw [fillIndices, ofInt_count hn, map_flatMap,
      trianglesOf_flatMap (fun _ => ⟨2, rfl⟩), range'_eq_map_range, flatMap_map]
    refine flatMap_congr fun i hi => ?_
    have hi := mem_range.mp hi
    have hstep : 4 * k / 4 = k := by omega
    have hcorner : ∀ r < 4, ((0 : Index) + .ofNat 16 (i * 4) + .ofNat 16 r).toNat = 4 * i + r := by
      intro r hr
      rw [BitVec.toNat_add, index_toNat (by omega), BitVec.toNat_ofNat]
      omega
    simp only [map_cons, map_nil, trianglesOf, stepAt, stepTriangles, hstep,
      index_toNat (show i * 4 < 65536 by omega)]
    have h1 := hcorner 1 (by decide)
    have h2 := hcorner 2 (by decide)
    have h3 := hcorner 3 (by decide)
    simp only [show (BitVec.ofNat 16 1) = 1 from rfl, show (BitVec.ofNat 16 2) = 2 from rfl,
      show (BitVec.ofNat 16 3) = 3 from rfl] at h1 h2 h3
    rw [h1, h2, h3]
    simp only [List.cons.injEq, Corners.mk.injEq, and_true]
    omega

/-! ## The loop -/

section Loop

variable {Chunk : Type} {chunk : Int → Option Chunk} {total advance : Int}

/-- The turns of the loop from `vertex_start` on. -/
inductive Chunks (chunk : Int → Option Chunk) (total advance : Int) : Int → List Chunk → Prop
  | done {s : Int} : total ≤ s → Chunks chunk total advance s []
  | turn {s : Int} {c : Chunk} {rest : List Chunk} :
    s < total → chunk s = some c → s + advance < 2 ^ 31 →
      Chunks chunk total advance (s + advance) rest → Chunks chunk total advance s (c :: rest)

variable {hpos : 0 < advance}

theorem Chunks.of_loop {n : Nat} : ∀ {s : Int} {chunks : List Chunk},
    (total - s).toNat = n → chunkLoop chunk total advance hpos s = some chunks →
      Chunks chunk total advance s chunks := by
  induction n using Nat.strong_induction_on with
  | _ n ih =>
    intro s chunks hn h
    rw [chunkLoop] at h
    split at h
    next hlt =>
      obtain ⟨c, hc, h⟩ := Option.bind_eq_some_iff.mp h
      split at h
      next hnext =>
        obtain ⟨rest, hrest, h⟩ := Option.bind_eq_some_iff.mp h
        cases h
        exact .turn hlt hc hnext (ih _ (by omega) rfl hrest)
      · cases h
    · cases h
      exact .done (by omega)

theorem Chunks.loop_eq {s : Int} {chunks : List Chunk} (h : Chunks chunk total advance s chunks) :
    chunkLoop chunk total advance hpos s = some chunks := by
  induction h with
  | done hle => rw [chunkLoop, if_neg (by omega)]
  | turn hlt hc hnext _ ih =>
    rw [chunkLoop, if_pos hlt, hc, Option.bind_eq_bind, Option.bind_some, if_pos hnext, ih]
    rfl

/-- **The loop makes these turns.** -/
theorem chunkLoop_eq_iff {s : Int} {chunks : List Chunk} :
    chunkLoop chunk total advance hpos s = some chunks ↔ Chunks chunk total advance s chunks :=
  ⟨Chunks.of_loop rfl, Chunks.loop_eq⟩

namespace Chunks

theorem mem {s : Int} {chunks : List Chunk} (h : Chunks chunk total advance s chunks)
    (hpos : 0 < advance) : ∀ c ∈ chunks, ∃ v, s ≤ v ∧ v < total ∧ advance ∣ v - s ∧
      chunk v = some c := by
  induction h with
  | done => exact fun c hc => absurd hc not_mem_nil
  | @turn s c rest hlt hc _ _ ih =>
    intro x hx
    rcases mem_cons.mp hx with rfl | hx
    · exact ⟨s, le_rfl, hlt, by simp, hc⟩
    · obtain ⟨v, hle, hlt, hdvd, hv⟩ := ih x hx
      refine ⟨v, by omega, hlt, ?_, hv⟩
      have hsub : v - s = v - (s + advance) + advance := by omega
      rw [hsub]
      exact hdvd.add dvd_rfl

/-- Every vertex is in the part of some chunk that the next one does not begin with. -/
theorem cover {s : Int} {chunks : List Chunk} (h : Chunks chunk total advance s chunks) {v : Int}
    (hle : s ≤ v) (hlt : v < total) : ∃ c ∈ chunks, ∃ start, s ≤ start ∧ start ≤ v ∧
      v < start + advance ∧ chunk start = some c := by
  induction h with
  | done hdone => omega
  | @turn s c rest _ hc _ _ ih =>
    by_cases hnext : v < s + advance
    · exact ⟨c, mem_cons_self, s, le_rfl, hle, hnext, hc⟩
    · obtain ⟨c, hmem, start, hstart, hv⟩ := ih (by omega)
      exact ⟨c, mem_cons_of_mem _ hmem, start, by omega, hv⟩

/-- **When the loop ends**: the start of the chunk behind each one is an `int`. -/
theorem exists_iff (hpos : 0 < advance) (hchunk : ∀ s, 0 ≤ s → s < total → ∃ c, chunk s = some c)
    {n : Nat} : ∀ {s : Int}, 0 ≤ s → (total - s).toNat = n →
      ((∃ chunks, Chunks chunk total advance s chunks) ↔
        ∀ j : Nat, s + j * advance < total → s + (j + 1) * advance < 2 ^ 31) := by
  induction n using Nat.strong_induction_on with
  | _ n ih =>
    intro s hs hn
    by_cases hlt : s < total
    · have hnext := ih _ (by omega) (s := s + advance)
        (by omega) rfl
      have hshift : ∀ j : Nat, s + advance + j * advance = s + (j + 1 : Nat) * advance := by
        intro j
        push_cast
        ring
      obtain ⟨c, hc⟩ := hchunk s hs hlt
      constructor
      · rintro ⟨chunks, hrun⟩
        cases hrun with
        | done hdone => omega
        | turn _ _ hfirst hrest =>
          intro j hj
          match j with
          | 0 => simpa using hfirst
          | j + 1 =>
            have hj' := hnext.mp ⟨_, hrest⟩ j (by rw [hshift]; exact hj)
            calc s + ((j + 1 : Nat) + 1) * advance
                = s + advance + (j + 1) * advance := by push_cast; ring
              _ < 2 ^ 31 := hj'
      · intro hall
        obtain ⟨rest, hrest⟩ := hnext.mpr fun j hj => by
          have hj' := hall (j + 1) (by rw [← hshift]; exact hj)
          calc s + advance + (j + 1) * advance
              = s + ((j + 1 : Nat) + 1) * advance := by push_cast; ring
            _ < 2 ^ 31 := hj'
        exact ⟨_, .turn hlt hc (by simpa using hall 0 (by simpa using hlt)) hrest⟩
    · have hnever : ∀ j : Nat, ¬ s + j * advance < total := by
        intro j
        have hnonneg : 0 ≤ (j : Int) * advance := by positivity
        omega
      exact ⟨fun _ j hj => absurd hj (hnever j), fun _ => ⟨[], .done (by omega)⟩⟩

end Chunks

end Loop

/-! ## Chunks of a line -/

/-- The last vertex of the line, or of its overdraw, is the one before this. -/
def Polyline.vertexTotal {F : Type} (line : Polyline F) : Nat :=
  match line.overdraw with
  | none => line.vertex_count
  | some _ => line.overdraw_vertex_start + line.overdraw_vertex_count

/-- **Chunks that are the line**: no attribute is behind the vertices that were asked for,
every one of these has its position and a colour, and each triangle of the line and of its
overdraw is drawn once. -/
structure Polyline.DrawnBy {Texture F P : Type} (line : Polyline F) (t : LineTransform F P)
    (chunks : List (LineChunk Texture F P)) : Prop where
  inside : ∀ c ∈ chunks, ∀ w ∈ c.attributes, 0 ≤ w.1 ∧ w.1 < c.cmd.vertexCount
  placed : ∀ c ∈ chunks, ∀ i : Nat, (i : Int) < c.cmd.vertexCount →
    ∃ v, line.vertices[c.vertexStart.toNat + i]? = some v ∧
      c.positions[i]? = some (t.transform v)
  coloured : ∀ c ∈ chunks, ∀ i : Int, 0 ≤ i → i < c.cmd.vertexCount → ∃ a, (i, a) ∈ c.attributes
  triangles : ∀ x : Corners, (chunks.flatMap (·.triangles)).count x =
    if x ∈ modeTriangles line.triangle_mode line.vertexTotal then 1 else 0

/-- The modes that lines are drawn in. -/
def LineMode (mode : TriangleIndexMode) : Prop := mode = .strip ∨ mode = .quads

variable {mode : TriangleIndexMode}

theorem modeTriangles_nodup (hmode : LineMode mode) (n : Nat) : (modeTriangles mode n).Nodup := by
  rw [modeTriangles, nodup_flatMap]
  rcases hmode with rfl | rfl
  · refine ⟨fun i _ => nodup_singleton _, nodup_range.imp fun {i j} hne => ?_⟩
    rw [Function.onFun, stepTriangles, stepTriangles, disjoint_singleton, mem_singleton,
      Corners.mk.injEq]
    omega
  · refine ⟨fun i _ => ?_, nodup_range.imp fun {i j} hne => ?_⟩
    · simp only [stepTriangles, nodup_cons, mem_singleton, Corners.mk.injEq,
        not_mem_nil, not_false_eq_true, nodup_nil, and_true]
      omega
    · intro x hx hy
      simp only [stepTriangles, mem_cons, not_mem_nil, or_false] at hx hy
      rcases hx with rfl | rfl
      all_goals
        simp only [Corners.mk.injEq] at hy
        omega

theorem modeTriangles_length (hmode : LineMode mode) (n : Nat) :
    (modeTriangles mode n).length = if mode = .strip then n - 2 else 2 * (n / 4) := by
  rcases hmode with rfl | rfl
  · rw [modeTriangles, flatMap_length_const (c := 1) (fun _ _ => rfl), length_range,
      if_pos rfl, stepCount, Nat.one_mul]
  · rw [modeTriangles, flatMap_length_const (c := 2) (fun _ _ => rfl), length_range,
      if_neg (by decide), stepCount]

/-- Triangles that are each drawn once are those of the draw, in some order. -/
theorem perm_of_count (hmode : LineMode mode) {n : Nat} {l : List Corners}
    (h : ∀ x, l.count x = if x ∈ modeTriangles mode n then 1 else 0) :
    l.Perm (modeTriangles mode n) :=
  perm_iff_count.mpr fun x => (h x).trans (modeTriangles_nodup hmode n).count.symm

namespace Polyline

variable {Texture F P : Type} [Zero F] {line : Polyline F} {t : LineTransform F P}
  {color : Color32} {total s : Int} {c : LineChunk Texture F P}

theorem toInt_eq_some {n m : Int} (h : toInt n = some m) : m = n ∧ n < 2147483648 := by
  rw [toInt] at h
  split_ifs at h with hn
  cases h
  exact ⟨rfl, by omega⟩

theorem overdrawAttributes_ge {vertexCount rough : Int} {written : List (Int × STfRGBAub F)}
    (h : line.overdrawAttributes color s vertexCount rough = some written) :
    (line.overdraw = none → written = []) ∧
      ∀ w ∈ written, wrapInt line.overdraw_vertex_start - s ≤ w.1 := by
  rw [overdrawAttributes] at h
  cases hline : line.overdraw with
  | none =>
    rw [hline] at h
    cases h
    exact ⟨fun _ => rfl, fun w hw => absurd hw not_mem_nil⟩
  | some place =>
    rw [hline] at h
    refine ⟨fun h => (by cases h), ?_⟩
    simp only [Option.bind_eq_bind, Option.bind_eq_some_iff] at h
    obtain ⟨_, _, start, hstart, _, _, _, _, h⟩ := h
    rw [← (toInt_eq_some hstart).1]
    split_ifs at h
    · cases h
      intro w hw
      obtain ⟨i, -, rfl⟩ := mem_map.mp hw
      omega
    · cases h
      exact fun w hw => absurd hw not_mem_nil

/-- **What one turn does.** -/
theorem drawChunk_spec (h : line.drawChunk t color total s = some c) :
    c.vertexStart = s ∧ c.cmd.indexMode = line.triangle_mode ∧
      c.cmd.vertexCount = min maxVertices (total - s) ∧
      c.positions = ((line.vertices.drop s.toNat).take c.cmd.vertexCount.toNat).map t.transform ∧
      ∃ overdraw, c.attributes =
          (List.range (min c.cmd.vertexCount (wrapInt line.vertex_count - s)).toNat).map
            (fun (i : Nat) => ((i : Int), ⟨0, 0, color⟩)) ++ overdraw ∧
        (line.overdraw = none → overdraw = []) ∧
        ∀ w ∈ overdraw, wrapInt line.overdraw_vertex_start - s ≤ w.1 := by
  simp only [drawChunk, Option.bind_eq_bind, Option.bind_eq_some_iff] at h
  obtain ⟨left, hleft, overdraw, hoverdraw, h⟩ := h
  rw [← (toInt_eq_some hleft).1]
  cases h
  exact ⟨rfl, rfl, rfl, rfl, overdraw, rfl, overdrawAttributes_ge hoverdraw⟩

/-- Where a chunk ends, the next one goes on: the steps of the two are those of both. -/
theorem steps_append {mode : TriangleIndexMode} (hmode : LineMode mode) {start total advance : Nat}
    (hadvance : advance = if mode = .strip then 65530 else 65532) (haligned : BeginsStep mode start)
    (hlt : start < total) :
    range' (stepAt mode start) (stepCount mode (min 65532 (total - start))) ++
        range' (stepAt mode (start + advance))
          (stepCount mode total - stepAt mode (start + advance)) =
      range' (stepAt mode start) (stepCount mode total - stepAt mode start) := by
  -- the last chunks may be over before the next one begins
  have hsum : ∀ a m b n k : Nat, m + n = k → (n = 0 ∨ b = a + m) →
      range' a m ++ range' b n = range' a k := by
    rintro a m b n k rfl (rfl | rfl)
    · rw [range'_zero, append_nil, Nat.add_zero]
    · exact range'_append_1
  apply hsum
  all_goals
    rcases hmode with rfl | rfl
    · rw [if_pos rfl] at hadvance
      simp only [stepCount, stepAt]
      omega
    · rw [if_neg (by decide)] at hadvance
      obtain ⟨k, rfl⟩ : 4 ∣ start := haligned
      simp only [stepCount, stepAt]
      omega

omit [Zero F] in
theorem advance_eq (line : Polyline F) :
    line.advance = (if line.triangle_mode = .strip then 65530 else 65532 : Nat) := by
  rw [advance]
  split_ifs
  · rfl
  · rfl

omit [Zero F] in
theorem beginsStep_advance (hmode : LineMode line.triangle_mode) {start : Nat}
    (h : BeginsStep line.triangle_mode start) :
    BeginsStep line.triangle_mode (start + line.advance.toNat) := by
  rw [advance_eq, Int.toNat_natCast]
  rcases hmode with hmode | hmode
  · rw [hmode] at h ⊢
    obtain ⟨k, rfl⟩ : 2 ∣ start := h
    exact ⟨k + 32765, by rw [if_pos rfl]; omega⟩
  · rw [hmode] at h ⊢
    obtain ⟨k, rfl⟩ : 4 ∣ start := h
    exact ⟨k + 16383, by rw [if_neg (by decide)]; omega⟩

/-- **The triangles of the chunks** from some vertex on. -/
theorem chunks_triangles (hmode : LineMode line.triangle_mode)
    {chunks : List (LineChunk Texture F P)}
    (h : Chunks (line.drawChunk t color total) total line.advance s chunks) (hs : 0 ≤ s)
    (haligned : BeginsStep line.triangle_mode s.toNat) :
    chunks.flatMap (·.triangles) =
      (range' (stepAt line.triangle_mode s.toNat)
        (stepCount line.triangle_mode total.toNat - stepAt line.triangle_mode s.toNat)).flatMap
          (stepTriangles line.triangle_mode) := by
  induction h with
  | @done s hle =>
    have hnone : stepCount line.triangle_mode total.toNat -
        stepAt line.triangle_mode s.toNat = 0 := by
      rcases hmode with hmode | hmode
      all_goals
        simp only [hmode, stepCount, stepAt]
        omega
    rw [hnone]
    rfl
  | @turn s c rest hlt hc _ _ ih =>
    obtain ⟨hstart, hindex, hcount, -⟩ := drawChunk_spec hc
    have hadvance := line.advance_pos
    have hnat : (s + line.advance).toNat = s.toNat + line.advance.toNat := by omega
    have hturn : line.advance.toNat = if line.triangle_mode = .strip then 65530 else 65532 := by
      rw [advance_eq, Int.toNat_natCast]
    have hsteps := steps_append hmode hturn haligned (show s.toNat < total.toNat by omega)
    have hvertices : c.cmd.vertexCount = (min 65532 (total.toNat - s.toNat) : Nat) := by
      rw [hcount, maxVertices]
      omega
    have hfirst := c.triangles_eq (show c.vertexStart = s.toNat by omega) hvertices (by omega)
      (by rw [hindex]; exact haligned)
    rw [flatMap_cons, hfirst, hindex,
      ih (by omega) (by rw [hnat]; exact beginsStep_advance hmode haligned), hnat,
      ← flatMap_append, hsteps]

omit [Zero F] in
theorem totalVertexCount_lt (h : line.totalVertexCount = some total) : total < 2147483648 := by
  rw [totalVertexCount] at h
  cases hline : line.overdraw with
  | none =>
    rw [hline] at h
    have hlt := @Int.bmod_lt line.vertex_count (2 ^ 32) (by norm_num)
    rw [← Option.some.inj h, wrapInt]
    exact hlt
  | some place =>
    rw [hline] at h
    obtain ⟨htotal, hlt⟩ := toInt_eq_some h
    rwa [htotal]

/-- **The triangles of all chunks** are those of one draw of as many vertices as the loop is
for. -/
theorem draw_triangles (hmode : LineMode line.triangle_mode)
    {chunks : List (LineChunk Texture F P)} (h : line.draw t color = some chunks) :
    ∃ total, line.totalVertexCount = some total ∧
      Chunks (line.drawChunk t color total) total line.advance 0 chunks ∧
      chunks.flatMap (·.triangles) = modeTriangles line.triangle_mode total.toNat := by
  obtain ⟨total, htotal, h⟩ := Option.bind_eq_some_iff.mp h
  have hrun := chunkLoop_eq_iff.mp h
  refine ⟨total, htotal, hrun, ?_⟩
  have hzero : BeginsStep line.triangle_mode 0 ∧ stepAt line.triangle_mode 0 = 0 := by
    rcases hmode with hmode | hmode
    · rw [hmode]
      exact ⟨dvd_zero 2, rfl⟩
    · rw [hmode]
      exact ⟨dvd_zero 4, rfl⟩
  have hall := chunks_triangles hmode hrun le_rfl hzero.1
  rw [hall, Int.toNat_zero, hzero.2, Nat.sub_zero, modeTriangles, range_eq_range']

end Polyline

/-! ## What `render` leaves -/

section Render

open Math (Vector2)

variable {F : Type} [Add F] [Sub F] [Mul F] [Div F] [Neg F] [Zero F] [LT F] [DecidableLT F] [BEq F]
  (fl : Floats F) (join : LineJoin) (coords : Coords F) (halfwidth pixel_size : F)

/-- There is an anchor for each normal. -/
def Sleeve.Paired {F : Type} (s : Sleeve F) : Prop := s.anchors.length = s.normals.length

omit [Add F] [Sub F] [Mul F] [Div F] [Neg F] [Zero F] [LT F] [DecidableLT F] [BEq F] in
theorem Sleeve.Paired.push {s : Sleeve F} (h : s.Paired) (pointA : Vector2 F)
    (pushed : List (Vector2 F)) : (s.push pointA pushed).Paired := by
  rw [Paired, Sleeve.push, length_append, length_append, length_replicate, h]

theorem Sleeve.Paired.renderEdge {s : Sleeve F} (h : s.Paired) (pointA pointB : Vector2 F) :
    (join.renderEdge fl pointA pointB halfwidth s).Paired := by
  cases join with
  | none => exact h.push pointA _
  | miter =>
    rw [LineJoin.renderEdge, renderEdgeMiter]
    split_ifs
    · exact h
    all_goals exact h.push pointA _
  | bevel => exact h.push pointA _

theorem sleeve_paired : (sleeve fl join coords halfwidth).Paired := by
  have hfold : ∀ (edges : List (Vector2 F × Vector2 F)) (s : Sleeve F), s.Paired →
      (edges.foldl (fun s e => join.renderEdge fl e.1 e.2 halfwidth s) s).Paired := by
    intro edges
    induction edges with
    | nil => exact fun s h => h
    | cons e edges ih => exact fun s h => ih _ (h.renderEdge fl join halfwidth e.1 e.2)
  refine (hfold _ _ ?_).renderEdge fl join halfwidth _ _
  rfl

theorem sleeve_none : 4 ≤ (sleeve fl .none coords halfwidth).normals.length := by
  rw [sleeve, LineJoin.renderEdge, renderEdgeNone, Sleeve.push, length_append]
  exact Nat.le_add_left ..

theorem render_mode (draw_overdraw : Bool) :
    (render fl join coords halfwidth pixel_size draw_overdraw).triangle_mode =
      join.triangleMode := by
  cases join <;> cases draw_overdraw <;> rfl

theorem render_lineMode (draw_overdraw : Bool) :
    LineMode (render fl join coords halfwidth pixel_size draw_overdraw).triangle_mode := by
  rw [render_mode]
  cases join with
  | none => exact .inr rfl
  | miter | bevel => exact .inl rfl

/-- **The layout of a rough line**: all its vertices. -/
theorem render_rough :
    (render fl join coords halfwidth pixel_size false).overdraw = none ∧
      (render fl join coords halfwidth pixel_size false).vertex_count ≤
        (render fl join coords halfwidth pixel_size false).vertices.length := by
  have hcore : (renderBase fl join coords halfwidth pixel_size false).vertices.length =
      (renderBase fl join coords halfwidth pixel_size false).vertex_count := by
    have hpaired := sleeve_paired fl join coords halfwidth
    rw [Sleeve.Paired] at hpaired
    simp [renderBase, hpaired]
  cases join with
  | none =>
    refine ⟨rfl, ?_⟩
    simp only [render, discardEnds, length_append, length_take, length_drop, hcore]
    omega
  | miter | bevel => exact ⟨rfl, hcore.ge⟩

/-- **The layout of a smooth line**: some vertices lie between the line and its overdraw. -/
theorem render_smooth :
    (∃ place, (render fl join coords halfwidth pixel_size true).overdraw = some place) ∧
      (render fl join coords halfwidth pixel_size true).vertex_count <
        (render fl join coords halfwidth pixel_size true).overdraw_vertex_start := by
  cases join with
  | none =>
    refine ⟨⟨_, rfl⟩, ?_⟩
    have hfour := sleeve_none fl coords (halfwidth - pixel_size * fl.overdrawShare)
    change (sleeve fl .none coords _).normals.length - 4 <
      (sleeve fl .none coords _).normals.length + 0
    rw [if_pos rfl]
    omega
  | miter | bevel =>
    refine ⟨⟨_, rfl⟩, ?_⟩
    simp only [render, renderBase, LineJoin.triangleMode, if_true]
    split_ifs
    all_goals exact Nat.lt_add_of_pos_right (Nat.succ_pos 1)

end Render

/-! ## Lines and their chunks -/

namespace Polyline

/-- The last vertex of the last chunk is an `int`: the vertices of the line are at most as many
as there are in the whole chunks below `2 ^ 31`. -/
def Fits {F : Type} (line : Polyline F) : Prop :=
  line.vertex_count ≤ if line.triangle_mode = .strip then 2147483630 else 2147483640

theorem fits_iff {F : Type} (line : Polyline F) : line.Fits ↔
    ∀ j : Nat, (0 : Int) + j * line.advance < line.vertex_count →
      (0 : Int) + (j + 1) * line.advance < 2 ^ 31 := by
  rw [Fits, advance_eq]
  split_ifs
  · constructor
    · intro h j hj
      omega
    · intro h
      have hlast := h 32771
      omega
  · constructor
    · intro h j hj
      omega
    · intro h
      have hlast := h 32770
      omega

variable {Texture F P : Type} [Zero F] {line : Polyline F} {t : LineTransform F P}
  {color : Color32} {chunks : List (LineChunk Texture F P)}

theorem wrapInt_nat {n : Nat} (h : n < 2147483648) : wrapInt n = n :=
  wrapInt_eq (by omega) (by omega)

omit [Zero F] in
theorem DrawnBy.total_lt (hmode : LineMode line.triangle_mode) {total : Int}
    (h : line.DrawnBy t chunks) (htotal : line.totalVertexCount = some total)
    (htriangles : chunks.flatMap (·.triangles) = modeTriangles line.triangle_mode total.toNat) :
    line.vertexTotal < 2147483648 := by
  have hlength := (perm_of_count hmode h.triangles).length_eq
  have hlt := totalVertexCount_lt htotal
  rw [htriangles, modeTriangles_length hmode, modeTriangles_length hmode] at hlength
  split_ifs at hlength
  · omega
  · omega

/-- **A vertex between the line and its overdraw has no colour.** -/
theorem not_drawn_of_overdraw (hmode : LineMode line.triangle_mode) {place : Nat}
    (hover : line.overdraw = some place) (hgap : line.vertex_count < line.overdraw_vertex_start)
    (h : line.draw t color = some chunks) : ¬ line.DrawnBy t chunks := by
  intro hdrawn
  obtain ⟨total, htotal, hrun, htriangles⟩ := draw_triangles hmode h
  have hlt := hdrawn.total_lt hmode htotal htriangles
  rw [vertexTotal, hover] at hlt
  dsimp only at hlt
  rw [totalVertexCount, hover] at htotal
  dsimp only at htotal
  rw [wrapInt_nat (by omega), wrapInt_nat (by omega)] at htotal
  obtain ⟨rfl, -⟩ := toInt_eq_some htotal
  obtain ⟨c, hc, start, hstart, hle, hnext, hchunk⟩ :=
    hrun.cover (v := line.vertex_count) (by omega) (by omega)
  obtain ⟨-, -, hcount, -, overdraw, hattributes, -, hbehind⟩ := drawChunk_spec hchunk
  have hadvance : line.advance ≤ maxVertices := by
    rw [advance, maxVertices]
    split_ifs
    · decide
    · decide
  obtain ⟨a, ha⟩ := hdrawn.coloured c hc (line.vertex_count - start) (by omega) (by omega)
  rw [hattributes] at ha
  rcases mem_append.mp ha with ha | ha
  · obtain ⟨i, hi, heq⟩ := mem_map.mp ha
    have hi := mem_range.mp hi
    have heq := congrArg Prod.fst heq
    rw [wrapInt_nat (by omega)] at hi
    omega
  · have hbehind := hbehind _ ha
    rw [wrapInt_nat (by omega)] at hbehind
    omega

section Rough

variable (hover : line.overdraw = none) (hlt : line.vertex_count < 2147483648)

include hover

theorem drawChunk_rough (hlt : line.vertex_count < 2147483648) {s : Int} (hs : 0 ≤ s)
    (hs' : s < line.vertex_count) :
    ∃ c : LineChunk Texture F P, line.drawChunk t color line.vertex_count s = some c := by
  have hint : toInt (wrapInt line.vertex_count - s) = some (line.vertex_count - s) := by
    rw [wrapInt_nat hlt, toInt, if_pos (by omega)]
  have hnone : ∀ n rough : Int, line.overdrawAttributes color s n rough = some [] := by
    intro n rough
    unfold overdrawAttributes
    rw [hover]
  simp only [drawChunk, hint, hnone]
  exact ⟨_, rfl⟩

include hlt

theorem rough_draw_iff : line.draw t color = some chunks ↔
    Chunks (line.drawChunk t color line.vertex_count) line.vertex_count line.advance 0 chunks := by
  have htotal : line.totalVertexCount = some (line.vertex_count : Int) := by
    rw [totalVertexCount, hover]
    exact congrArg some (wrapInt_nat hlt)
  rw [draw, htotal]
  exact chunkLoop_eq_iff

/-- **When the loop over a line without overdraw ends.** -/
theorem rough_draws_iff :
    (∃ chunks : List (LineChunk Texture F P), line.draw t color = some chunks) ↔ line.Fits := by
  have hchunk := fun s hs hs' =>
    @drawChunk_rough Texture F P _ line t color hover hlt s hs hs'
  rw [fits_iff, ← Chunks.exists_iff line.advance_pos hchunk (le_refl 0) rfl]
  exact exists_congr fun chunks => rough_draw_iff hover hlt

end Rough

/-- **The chunks of a line without overdraw.** -/
theorem drawnBy_of_rough (hmode : LineMode line.triangle_mode) (hover : line.overdraw = none)
    (hvertices : line.vertex_count ≤ line.vertices.length) (hlt : line.vertex_count < 2147483648)
    (h : line.draw t color = some chunks) : line.DrawnBy t chunks := by
  have hrun := (rough_draw_iff hover hlt).mp h
  obtain ⟨total, htotal, -, htriangles⟩ := draw_triangles hmode h
  rw [totalVertexCount, hover] at htotal
  have htotal := Option.some.inj htotal
  rw [wrapInt_nat hlt] at htotal
  have hspec : ∀ c ∈ chunks, ∃ s, 0 ≤ s ∧ s < (line.vertex_count : Int) ∧ c.vertexStart = s ∧
      c.cmd.vertexCount = min maxVertices (line.vertex_count - s) ∧
      c.positions = ((line.vertices.drop s.toNat).take c.cmd.vertexCount.toNat).map t.transform ∧
      c.attributes = (List.range c.cmd.vertexCount.toNat).map
        (fun (i : Nat) => ((i : Int), ⟨0, 0, color⟩)) := by
    intro c hc
    obtain ⟨s, hs, hs', -, hchunk⟩ := hrun.mem line.advance_pos c hc
    obtain ⟨hstart, -, hcount, hpositions, overdraw, hattributes, hnone, -⟩ :=
      drawChunk_spec hchunk
    refine ⟨s, hs, hs', hstart, hcount, hpositions, ?_⟩
    rw [hattributes, hnone hover, append_nil, wrapInt_nat hlt,
      min_eq_left (by rw [hcount]; exact min_le_right ..)]
  constructor
  · intro c hc w hw
    obtain ⟨s, -, -, -, -, -, hattributes⟩ := hspec c hc
    rw [hattributes] at hw
    obtain ⟨i, hi, rfl⟩ := mem_map.mp hw
    have hi := mem_range.mp hi
    omega
  · intro c hc i hi
    obtain ⟨s, hs, hs', hstart, hcount, hpositions, -⟩ := hspec c hc
    have hinside : s.toNat + i < line.vertices.length := by omega
    refine ⟨line.vertices[s.toNat + i], ?_, ?_⟩
    · rw [hstart, getElem?_eq_getElem hinside]
    · rw [hpositions, getElem?_map, getElem?_take_of_lt (by omega), getElem?_drop,
        getElem?_eq_getElem hinside]
      rfl
  · intro c hc i hi hi'
    obtain ⟨s, -, -, -, -, -, hattributes⟩ := hspec c hc
    refine ⟨⟨0, 0, color⟩, ?_⟩
    rw [hattributes]
    exact mem_map.mpr ⟨i.toNat, mem_range.mpr (by omega),
      by rw [Int.toNat_of_nonneg hi]⟩
  · intro x
    rw [htriangles, ← htotal, Int.toNat_natCast, (modeTriangles_nodup hmode _).count, vertexTotal, hover]

end Polyline

/-- **Lines are drawn in chunks** as they are if and only if they are rough, with not more
vertices than an `int` can tell. -/
theorem draw_chunks_iff {Texture F P : Type} [Add F] [Sub F] [Mul F] [Div F] [Neg F] [Zero F]
    [LT F] [DecidableLT F] [BEq F] (fl : Floats F) (join : LineJoin) (coords : Coords F)
    (halfwidth pixel_size : F) (draw_overdraw : Bool) (t : LineTransform F P) (color : Color32) :
    (∃ chunks : List (LineChunk Texture F P),
      (render fl join coords halfwidth pixel_size draw_overdraw).draw t color = some chunks ∧
        (render fl join coords halfwidth pixel_size draw_overdraw).DrawnBy t chunks) ↔
      draw_overdraw = false ∧
        (render fl join coords halfwidth pixel_size draw_overdraw).Fits := by
  have hmode := render_lineMode fl join coords halfwidth pixel_size draw_overdraw
  cases draw_overdraw with
  | true =>
    obtain ⟨⟨place, hover⟩, hgap⟩ := render_smooth fl join coords halfwidth pixel_size
    constructor
    · rintro ⟨chunks, hdraw, hdrawn⟩
      exact absurd hdrawn (Polyline.not_drawn_of_overdraw hmode hover hgap hdraw)
    · rintro ⟨h, -⟩
      cases h
  | false =>
    obtain ⟨hover, hvertices⟩ := render_rough fl join coords halfwidth pixel_size
    generalize render fl join coords halfwidth pixel_size false = line at *
    constructor
    · rintro ⟨chunks, hdraw, hdrawn⟩
      obtain ⟨total, htotal, -, htriangles⟩ := Polyline.draw_triangles hmode hdraw
      have hlt := hdrawn.total_lt hmode htotal htriangles
      rw [Polyline.vertexTotal, hover] at hlt
      exact ⟨rfl, (Polyline.rough_draws_iff hover hlt).mp ⟨chunks, hdraw⟩⟩
    · rintro ⟨-, hfits⟩
      have hlt : line.vertex_count < 2147483648 := by
        rw [Polyline.Fits] at hfits
        split_ifs at hfits
        · omega
        · omega
      obtain ⟨chunks, hdraw⟩ := (Polyline.rough_draws_iff hover hlt).mpr hfits
      exact ⟨chunks, hdraw, Polyline.drawnBy_of_rough hmode hover hvertices hlt hdraw⟩

/-- Exact numbers; the root is that of a square. -/
def exactFloats : Floats ℚ := ⟨Rat.sqrt, abs, 1 / 20, 3 / 10⟩

/-- A smooth line of one segment, two wide. -/
def smoothSegment : Polyline ℚ :=
  render exactFloats .miter ⟨⟨0, 0⟩, ⟨3, 0⟩, []⟩ 1 1 true

/-- It is a single chunk of sixteen vertices, and the fifth and the sixth of them have no
colour. -/
theorem smoothSegment_not_coloured :
    ∃ chunks : List (LineChunk Unit ℚ (Math.Vector2 ℚ)),
      smoothSegment.draw ⟨true, id⟩ ⟨255, 255, 255, 255⟩ = some chunks ∧
        (∃ c ∈ chunks, c.cmd.vertexCount = 16 ∧
          c.attributes.map Prod.fst = [0, 1, 2, 3, 6, 7, 8, 9, 10, 11, 12, 13, 14, 15]) ∧
        ¬ smoothSegment.DrawnBy ⟨true, id⟩ chunks := by
  have htotal : smoothSegment.totalVertexCount = some 16 := by decide +kernel
  have hadvance : smoothSegment.advance = 65530 := by decide +kernel
  have hchunk : ((smoothSegment.drawChunk ⟨true, id⟩ ⟨255, 255, 255, 255⟩ 16 0 :
      Option (LineChunk Unit ℚ (Math.Vector2 ℚ))).map fun c =>
        (c.cmd.vertexCount, c.attributes.map Prod.fst)) =
      some (16, [0, 1, 2, 3, 6, 7, 8, 9, 10, 11, 12, 13, 14, 15]) := by decide +kernel
  obtain ⟨c, hc, hfields⟩ := Option.map_eq_some_iff.mp hchunk
  have hdraw : smoothSegment.draw ⟨true, id⟩ ⟨255, 255, 255, 255⟩ = some [c] := by
    rw [Polyline.draw, htotal]
    refine chunkLoop_eq_iff.mpr (.turn (by decide) hc ?_ (.done ?_))
    all_goals
      decide
  refine ⟨[c], hdraw, ⟨c, mem_singleton_self c, congrArg Prod.fst hfields,
    congrArg Prod.snd hfields⟩, ?_⟩
  have hover : smoothSegment.overdraw = some 6 := by decide +kernel
  exact Polyline.not_drawn_of_overdraw (.inl rfl) hover (by decide +kernel) hdraw

end Lhatove.Graphics
