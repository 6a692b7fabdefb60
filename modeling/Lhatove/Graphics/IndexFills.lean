import Lhatove.Graphics.LineChunks

/-!
# Filling indices

`fillIndices` of either width, and the indices it writes: as many as `getIndexCount` says,
where it does.

- `fillIndicesT`: its loops, whose places are `int`s;
- `FillsExactly`: what it is to write;
- `fillIndices_exact_iff`: when it does.
-/

namespace Lhatove.Graphics

/-- The width of an index: arithmetic with a `uint16` is done in `int`s. -/
inductive IndexWidth
  | uint16
  | uint32
  deriving DecidableEq

def IndexWidth.bits : IndexWidth → Nat
  | .uint16 => 16
  | .uint32 => 32

/-- How often `for (T index = 0; index < vertexCount - 2; index++)` turns. -/
def stripTurns : (T : IndexWidth) → BitVec T.bits → Nat
  | .uint16, vertexCount => ((vertexCount.toNat : Int) - 2).toNat
  | .uint32, vertexCount => (vertexCount - 2).toNat

/-- A loop whose turns write their indices behind those before; none if the place of the
next one is no `int`. -/
def fillLoop {T α : Type} (turn : α → List T) : List α → List T → Option (List T)
  | [], written => some written
  | index :: rest, written =>
    if written.length + (turn index).length < 2 ^ 31 then
      fillLoop turn rest (written ++ turn index)
    else none

/-- `fillIndicesT`: what is written from `indices[0]` on. -/
def fillIndicesT (T : IndexWidth) (mode : TriangleIndexMode)
    (vertexStart vertexCount : BitVec T.bits) : Option (List (BitVec T.bits)) :=
  match mode with
  | .none => some []
  | .strip =>
    fillLoop (fun n =>
      let index := BitVec.ofNat T.bits n
      [vertexStart + index, vertexStart + index + 1 + (index &&& 1),
        vertexStart + index + 2 - (index &&& 1)])
      (List.range (stripTurns T vertexCount)) []
  | .fan =>
    fillLoop (fun n =>
      let index := BitVec.ofNat T.bits n
      [vertexStart, vertexStart + index - 1, vertexStart + index])
      (List.range' 2 (vertexCount.toNat - 2)) []
  | .quads =>
    fillLoop (fun i =>
      let vi := vertexStart + BitVec.ofNat T.bits (i * 4)
      [vi + 0, vi + 1, vi + 2, vi + 2, vi + 1, vi + 3])
      (List.range (vertexCount.toNat / 4)) []

/-! ## What is to be written -/

/-- The vertices have indices of the width, and the number of indices is an `int`. -/
def Representable (T : IndexWidth) (mode : TriangleIndexMode) (start count : BitVec T.bits) : Prop :=
  start.toNat + count.toNat ≤ 2 ^ T.bits ∧ count.toNat < 2 ^ 31 ∧
    match mode with
    | .none => True
    | .strip => 3 * (count.toNat - 2) < 2 ^ 31
    | .fan => 3 * (count.toNat - 2) < 2 ^ 31
    | .quads => count.toNat * 6 < 2 ^ 31

/-- Corners of the vertices that begin with vertex `start`. -/
def Corners.from (start : Nat) (t : Corners) : Corners :=
  ⟨start + t.a, start + t.b, start + t.c⟩

/-- As many indices as were asked for, all of vertices that are drawn, which make the triangles of
the mode. -/
structure Filled {T : IndexWidth} (mode : TriangleIndexMode) (start count : BitVec T.bits)
    (written : List (BitVec T.bits)) : Prop where
  size : (written.length : Int) = getIndexCount mode count.toNat
  inside : ∀ index ∈ written, start ≤ index ∧ index.toNat < start.toNat + count.toNat
  triangles : trianglesOf (written.map fun index => (index.toNat : Int)) =
    (modeTriangles mode count.toNat).map (Corners.from start.toNat)

def FillsExactly (T : IndexWidth) (mode : TriangleIndexMode) (start count : BitVec T.bits) : Prop :=
  ∃ written, fillIndicesT T mode start count = some written ∧ Filled mode start count written

/-- No triangle is cut off. -/
def WholeTriangles (mode : TriangleIndexMode) (count : Nat) : Prop :=
  match mode with
  | .none => True
  | .strip => 2 ≤ count
  | .fan => 2 ≤ count
  | .quads => 4 ∣ count

/-! ## What is written -/

/-- The indices of triangles. -/
def cornersOf (ts : List Corners) : List Int := ts.flatMap fun t => [t.a, t.b, t.c]

theorem trianglesOf_cornersOf (ts : List Corners) : trianglesOf (cornersOf ts) = ts := by
  induction ts with
  | nil => rfl
  | cons t ts ih => exact congrArg (t :: ·) ih

theorem cornersOf_flatMap {α : Type} (f : α → List Corners) (l : List α) :
    cornersOf (l.flatMap f) = l.flatMap fun x => cornersOf (f x) := List.flatMap_assoc

theorem fillLoop_eq {T α : Type} {turn : α → List T} {k : Nat} (hk : ∀ index, (turn index).length = k)
    {l : List α} {written : List T} (h : written.length + k * l.length < 2 ^ 31) :
    fillLoop turn l written = some (written ++ l.flatMap turn) := by
  induction l generalizing written with
  | nil => rw [fillLoop, List.flatMap_nil, List.append_nil]
  | cons index rest ih =>
    rw [List.length_cons, Nat.mul_succ] at h
    rw [fillLoop, if_pos (by rw [hk]; omega), ih (by rw [List.length_append, hk]; omega),
      List.flatMap_cons, List.append_assoc]

/-! ### Single indices -/

section Bits

variable {w : Nat} {start : BitVec w} {i : Nat}

theorem ofNat_and_one (hw : w = 16 ∨ w = 32) (i : Nat) :
    BitVec.ofNat w i &&& 1 = BitVec.ofNat w (i % 2) := by
  refine BitVec.eq_of_toNat_eq ?_
  rcases hw with rfl | rfl
  all_goals
    rw [BitVec.toNat_and, show (1 : BitVec _).toNat = 1 from rfl, Nat.and_one_is_mod,
      BitVec.toNat_ofNat, BitVec.toNat_ofNat]
    omega

theorem toNat_add_ofNat (hw : w = 16 ∨ w = 32) (h : start.toNat + i < 2 ^ w) :
    (start + BitVec.ofNat w i).toNat = start.toNat + i := by
  rw [BitVec.toNat_add, BitVec.toNat_ofNat]
  rcases hw with rfl | rfl <;> omega

theorem strip_next (hw : w = 16 ∨ w = 32) :
    start + BitVec.ofNat w i + 1 + (BitVec.ofNat w i &&& 1) =
      start + BitVec.ofNat w (i + 1 + i % 2) := by
  rw [ofNat_and_one hw]
  rcases hw with rfl | rfl <;> bv_omega

theorem strip_last (hw : w = 16 ∨ w = 32) :
    start + BitVec.ofNat w i + 2 - (BitVec.ofNat w i &&& 1) =
      start + BitVec.ofNat w (i + 2 - i % 2) := by
  rw [ofNat_and_one hw]
  rcases hw with rfl | rfl <;> bv_omega

theorem fan_before (hw : w = 16 ∨ w = 32) :
    start + BitVec.ofNat w (2 + i) - 1 = start + BitVec.ofNat w (i + 1) := by
  rcases hw with rfl | rfl <;> bv_omega

theorem quad_corner (hw : w = 16 ∨ w = 32) (k : Nat) :
    start + BitVec.ofNat w (i * 4) + BitVec.ofNat w k = start + BitVec.ofNat w (4 * i + k) := by
  rcases hw with rfl | rfl <;> bv_omega

end Bits

/-! ### All of them -/

/-- The vertices of the triangles of a step, counted from the first one of all. -/
def stepOffsets (mode : TriangleIndexMode) (i : Nat) : List Nat :=
  match mode with
  | .none => []
  | .strip => [i, i + 1 + i % 2, i + 2 - i % 2]
  | .fan => [0, i + 1, i + 2]
  | .quads => [4 * i, 4 * i + 1, 4 * i + 2, 4 * i + 2, 4 * i + 1, 4 * i + 3]

variable {T : IndexWidth} {mode : TriangleIndexMode} {start count : BitVec T.bits}

theorem cornersOf_step (i s : Nat) :
    cornersOf ((stepTriangles mode i).map (Corners.from s)) =
      (stepOffsets mode i).map fun k => ((s + k : Nat) : Int) := by
  cases mode <;> simp [stepTriangles, stepOffsets, cornersOf, Corners.from]
  omega

theorem stepOffsets_lt {i count k : Nat} (hi : i < stepCount mode count)
    (hk : k ∈ stepOffsets mode i) : k < count := by
  cases mode <;>
    simp only [stepOffsets, stepCount, List.mem_cons, List.not_mem_nil, or_false] at hk hi <;>
    omega

/-- What is written where every step has its turn. -/
def steps (mode : TriangleIndexMode) (start count : BitVec T.bits) : List (BitVec T.bits) :=
  (List.range (stepCount mode count.toNat)).flatMap fun i =>
    (stepOffsets mode i).map fun k => start + BitVec.ofNat T.bits k

theorem bits_eq : T.bits = 16 ∨ T.bits = 32 := by
  cases T
  · exact .inl rfl
  · exact .inr rfl

theorem stripTurns_eq : ∀ {T : IndexWidth} {count : BitVec T.bits}, 2 ≤ count.toNat →
    stripTurns T count = count.toNat - 2
  | .uint16, count, h => by
    change ((count.toNat : Int) - 2).toNat = _
    omega
  | .uint32, count, h => by
    have hsub : ∀ n : BitVec 32, 2 ≤ n.toNat → (n - 2).toNat = n.toNat - 2 := by
      intro n hn
      bv_omega
    exact hsub count h

/-- **What is written**, where the loop over a strip has its turns. -/
theorem fillIndicesT_eq (h : Representable T mode start count)
    (hstrip : mode = .strip → 2 ≤ count.toNat) :
    fillIndicesT T mode start count = some (steps mode start count) := by
  obtain ⟨-, -, hint⟩ := h
  cases mode with
  | none => rfl
  | strip =>
    have hturns : ([] : List (BitVec T.bits)).length + 3 * (count.toNat - 2) < 2 ^ 31 :=
      (Nat.zero_add _).trans_lt hint
    rw [fillIndicesT, stripTurns_eq (hstrip rfl),
      fillLoop_eq (k := 3) (fun _ => rfl) (by rwa [List.length_range])]
    simp only [strip_next bits_eq, strip_last bits_eq]
    rfl
  | fan =>
    have hturns : ([] : List (BitVec T.bits)).length + 3 * (count.toNat - 2) < 2 ^ 31 :=
      (Nat.zero_add _).trans_lt hint
    rw [fillIndicesT, fillLoop_eq (k := 3) (fun _ => rfl) (by rwa [List.length_range']),
      List.range'_eq_map_range, List.flatMap_map]
    refine congrArg some (List.flatMap_congr fun i _ => ?_)
    dsimp only
    rw [fan_before bits_eq, Nat.add_comm 2 i]
    exact congrArg (· :: _) (BitVec.add_zero start).symm
  | quads =>
    rw [fillIndicesT, fillLoop_eq (k := 6) (fun _ => rfl) (by
      rw [List.length_range, List.length_nil]
      exact (by omega : 0 + 6 * (count.toNat / 4) ≤ count.toNat * 6).trans_lt hint)]
    refine congrArg some (List.flatMap_congr fun i _ => ?_)
    have hcorner := @quad_corner _ start i bits_eq
    exact congrArg₂ List.cons (hcorner 0) (congrArg₂ List.cons (hcorner 1)
      (congrArg₂ List.cons (hcorner 2) (congrArg₂ List.cons (hcorner 2)
        (congrArg₂ List.cons (hcorner 1) (congrArg (fun x => [x]) (hcorner 3))))))

theorem filled_steps_iff (h : start.toNat + count.toNat ≤ 2 ^ T.bits) :
    Filled mode start count (steps mode start count) ↔
      ((steps mode start count).length : Int) = getIndexCount mode count.toNat := by
  refine ⟨fun hfilled => hfilled.size, fun hsize => ⟨hsize, ?_, ?_⟩⟩
  · intro index hindex
    obtain ⟨i, hi, hindex⟩ := List.mem_flatMap.mp hindex
    obtain ⟨k, hk, rfl⟩ := List.mem_map.mp hindex
    have hlt := stepOffsets_lt (List.mem_range.mp hi) hk
    rw [BitVec.le_def, toNat_add_ofNat bits_eq (by omega)]
    omega
  · rw [steps, List.map_flatMap, modeTriangles, List.map_flatMap,
      ← trianglesOf_cornersOf ((List.range _).flatMap _), cornersOf_flatMap]
    refine congrArg trianglesOf (List.flatMap_congr fun i hi => ?_)
    rw [cornersOf_step, List.map_map]
    refine List.map_congr_left fun k hk => ?_
    have hlt := stepOffsets_lt (List.mem_range.mp hi) hk
    exact congrArg Nat.cast (toNat_add_ofNat bits_eq (by omega))

theorem length_steps : (steps mode start count).length =
    (stepOffsets mode 0).length * stepCount mode count.toNat := by
  have hstep : ∀ i, (stepOffsets mode i).length = (stepOffsets mode 0).length := by
    intro i
    cases mode <;> rfl
  rw [steps, List.length_flatMap]
  simp only [List.length_map, hstep, List.map_const', List.length_range, List.sum_replicate,
    smul_eq_mul]
  exact Nat.mul_comm _ _

theorem indexCount_eq (h : Representable T mode start count) :
    getIndexCount mode count.toNat = match mode with
      | .none => 0
      | .strip => 3 * ((count.toNat : Int) - 2)
      | .fan => 3 * ((count.toNat : Int) - 2)
      | .quads => (count.toNat * 6 / 4 : Nat) := by
  obtain ⟨-, hcount, hint⟩ := h
  cases mode with
  | none => rfl
  | strip =>
    have hint : 3 * (count.toNat - 2) < 2 ^ 31 := hint
    change wrapInt (3 * wrapInt (count.toNat - 2)) = 3 * ((count.toNat : Int) - 2)
    rw [wrapInt_eq (n := count.toNat - 2) (by omega) (by omega), wrapInt_eq (by omega) (by omega)]
  | fan =>
    have hint : 3 * (count.toNat - 2) < 2 ^ 31 := hint
    change wrapInt (3 * wrapInt (count.toNat - 2)) = 3 * ((count.toNat : Int) - 2)
    rw [wrapInt_eq (n := count.toNat - 2) (by omega) (by omega), wrapInt_eq (by omega) (by omega)]
  | quads =>
    have hint : count.toNat * 6 < 2 ^ 31 := hint
    change (wrapInt (count.toNat * 6)).tdiv 4 = (count.toNat * 6 / 4 : Nat)
    rw [wrapInt_eq (by omega) (by omega), Int.tdiv_eq_ediv_of_nonneg (by omega)]
    omega

theorem length_steps_iff (h : Representable T mode start count) :
    ((steps mode start count).length : Int) = getIndexCount mode count.toNat ↔
      WholeTriangles mode count.toNat := by
  rw [length_steps, indexCount_eq h]
  cases mode <;> simp only [stepOffsets, stepCount, WholeTriangles, List.length_cons, List.length_nil]
  · simp
  all_goals omega

/-- **`fillIndices` writes what was sized** exactly where no triangle is cut off. -/
theorem fillIndices_exact_iff (h : Representable T mode start count) :
    FillsExactly T mode start count ↔ WholeTriangles mode count.toNat := by
  constructor
  · rintro ⟨written, hwritten, hfilled⟩
    have hstrip : mode = .strip → 2 ≤ count.toNat := by
      rintro rfl
      have hsize := hfilled.size
      rw [indexCount_eq h] at hsize
      dsimp only at hsize
      omega
    rw [fillIndicesT_eq h hstrip] at hwritten
    obtain rfl := Option.some.inj hwritten
    exact (length_steps_iff h).mp hfilled.size
  · intro hwhole
    refine ⟨_, fillIndicesT_eq h ?_, (filled_steps_iff h.1).mpr ((length_steps_iff h).mpr hwhole)⟩
    rintro rfl
    exact hwhole

theorem fillIndices_exact_iff_square : Representable .uint32 .quads 8#32 4#32 ∧
    (FillsExactly .uint32 .quads 8#32 4#32 ↔ 4 ∣ 4) := by
  have h : Representable .uint32 .quads 8#32 4#32 := ⟨by decide, by decide, by decide⟩
  exact ⟨h, fillIndices_exact_iff h⟩

/-- Five vertices are one quad, of six indices; seven are asked for. -/
theorem not_exact_fiveVertices : Representable .uint16 .quads 0#16 5#16 ∧
    ¬ FillsExactly .uint16 .quads 0#16 5#16 := by
  refine ⟨⟨by decide, by decide, by decide⟩, ?_⟩
  rintro ⟨written, hwritten, hfilled⟩
  have hsix : fillIndicesT .uint16 .quads 0#16 5#16 = some [0, 1, 2, 2, 1, 3] := rfl
  obtain rfl := Option.some.inj (hsix.symm.trans hwritten)
  exact absurd hfilled.size (by decide)

end Lhatove.Graphics
