import Lhatove.Graphics.BatchedRuns
import Lhatove.Graphics.MeshDraws

/-!
# Triangles of fans

What the index buffer for fans holds, and what a draw of a part of it covers.

- `fanIndices_at`: the indices in it, three for each triangle;
- `assemble_blocks`: whole triangles of it, for both kinds of backends;
- `indexed_triangles_iff`: when a draw from it is a native fan.
-/

namespace Lhatove.Graphics

open List

/-! ## What is in the buffer -/

/-- The indices in the buffer. -/
def fanIndices : List Index := fillIndices .fan 0 (.ofNat 16 uint16Max)

/-- The corners of triangle `i`. -/
def fanBlock (i : Nat) : List Nat := [0, i + 1, i + 2]

theorem fanIndices_eq : fanIndices = (range' 2 65533).flatMap fun index =>
    [0, 0 + .ofNat 16 (index - 1), 0 + .ofNat 16 index] := by
  have hcount : (BitVec.ofNat 16 uint16Max).toNat - 2 = 65533 := rfl
  rw [fanIndices, fillIndices, hcount]

/-- **The indices in the buffer**: three for each triangle. -/
theorem fanIndices_at {i r : Nat} (hi : i < 65533) (hr : r < 3) :
    (fanIndices.getD (3 * i + r) 0).toNat = (fanBlock i).getD r 0 := by
  have hlength : i < (range' 2 65533).length := by rwa [length_range']
  rw [fanIndices_eq, @getD_flatMap _ _ 3 _ (fun _ => rfl) 0 r hr _ _ hlength, getElem_range',
    fanBlock]
  have hmod : ∀ k < 65536, (0 + BitVec.ofNat 16 k : Index).toNat = k := by
    intro k hk
    have hzero : (0 + BitVec.ofNat 16 k : Index) = BitVec.ofNat 16 k := BitVec.zero_add _
    rw [hzero, BitVec.toNat_ofNat]
    exact Nat.mod_eq_of_lt hk
  interval_cases r
  · rfl
  · exact (hmod _ (by omega)).trans (show 2 + 1 * i - 1 = i + 1 by omega)
  · exact (hmod _ (by omega)).trans (show 2 + 1 * i = i + 2 by omega)

theorem length_fanIndices : fanIndices.length = 196599 := by
  rw [fanIndices_eq, length_flatMap]
  have hsum : ∀ l : List Nat, (l.map fun _ => 3).sum = 3 * l.length := by
    intro l
    rw [map_const', sum_replicate_nat, Nat.mul_comm]
  exact (hsum _).trans (by rw [length_range'])

theorem fan_byte {j r : Nat} (hj : j < 196599) (hr : r < 2) :
    (createFanIndexBuffer.data.bytes (2 * j + r)).toNat =
      (fanIndices.getD j 0).toNat / 2 ^ (8 * r) % 256 := by
  have hlength : j < fanIndices.length := by rwa [length_fanIndices]
  have hbytes : createFanIndexBuffer.data.bytes (2 * j + r) =
      ((fanIndices.flatMap (storeLE 2)).map .ofBitVec).getD (2 * j + r) 0 := rfl
  rw [hbytes, show (0 : UInt8) = .ofBitVec 0 from rfl, getD_map,
    getD_flatMap (fun x => storeLE_length 2 x) 0 hr hlength, getD_eq_getElem _ _ hlength,
    storeLE_getD _ hr, UInt8.toNat_ofBitVec, BitVec.toNat_setWidth, BitVec.toNat_ushiftRight,
    Nat.shiftRight_eq_div_pow]

theorem fan_size : createFanIndexBuffer.data.size = 393198 := by decide

theorem read_uint16 {j k : Nat} (h : j + k < 196599) :
    readIndex (fun a => createFanIndexBuffer.data.bytes (2 * j + a)) 2 k =
      (fanIndices.getD (j + k) 0).toNat := by
  have hlow := fan_byte h (show 0 < 2 by decide)
  have hhigh := fan_byte h (show 1 < 2 by decide)
  rw [readIndex, (toNat_loadLE (by simp)).1]
  simp only [readCells, range_succ, range_zero, nil_append, map_cons, map_nil,
    singleton_append, foldr_cons, foldr_nil, UInt8.toNat_toBitVec,
      show 2 * j + (k * 2 + 0) = 2 * (j + k) + 0 by omega,
    show 2 * j + (k * 2 + 1) = 2 * (j + k) + 1 by omega, hlow, hhigh]
  have := (fanIndices.getD (j + k) 0).isLt
  omega

theorem read_uint32 {j k : Nat} (h : j + 2 * k + 1 < 196599) :
    readIndex (fun a => createFanIndexBuffer.data.bytes (2 * j + a)) 4 k =
      (fanIndices.getD (j + 2 * k) 0).toNat + 65536 * (fanIndices.getD (j + 2 * k + 1) 0).toNat := by
  have hlow := fan_byte (show j + 2 * k < 196599 by omega) (show 0 < 2 by decide)
  have hlow' := fan_byte (show j + 2 * k < 196599 by omega) (show 1 < 2 by decide)
  have hhigh := fan_byte h (show 0 < 2 by decide)
  have hhigh' := fan_byte h (show 1 < 2 by decide)
  rw [readIndex, (toNat_loadLE (by simp)).1]
  simp only [readCells, range_succ, range_zero, nil_append, map_cons, map_nil, cons_append, foldr_cons,
    foldr_nil, UInt8.toNat_toBitVec,
    show 2 * j + (k * 4 + 0) = 2 * (j + 2 * k) + 0 by omega,
    show 2 * j + (k * 4 + 1) = 2 * (j + 2 * k) + 1 by omega,
    show 2 * j + (k * 4 + 2) = 2 * (j + 2 * k + 1) + 0 by omega,
    show 2 * j + (k * 4 + 3) = 2 * (j + 2 * k + 1) + 1 by omega, hlow, hlow', hhigh, hhigh']
  have := (fanIndices.getD (j + 2 * k) 0).isLt
  have := (fanIndices.getD (j + 2 * k + 1) 0).isLt
  omega

theorem read_blocks {t k : Nat} (h : t + k ≤ 65533) :
    readIndices (fun a => createFanIndexBuffer.data.bytes (6 * t + a)) .uint16 (3 * k) =
      (range' t k).flatMap fanBlock := by
  have hlength : ((range' t k).flatMap fanBlock).length = 3 * k := by
    rw [length_flatMap]
    simp [fanBlock, map_const', Nat.mul_comm]
  refine eq_of_getD 0 (by rw [hlength, readIndices, length_map, length_range]) ?_
  intro j hj
  rw [readIndices, length_map, length_range] at hj
  have hblock : j / 3 < (range' t k).length := by rw [length_range']; omega
  have hflat := @getD_flatMap _ _ 3 fanBlock (fun _ => rfl) 0 (j % 3) (Nat.mod_lt _ (by decide)) _ _
    hblock
  rw [Nat.div_add_mod, getElem_range', Nat.one_mul] at hflat
  have hread := @read_uint16 (3 * t) j (by omega)
  rw [← Nat.mul_assoc, show 3 * t + j = 3 * (t + j / 3) + j % 3 by omega,
    fanIndices_at (by omega) (Nat.mod_lt _ (by decide))] at hread
  rw [hflat, ← hread, readIndices, getD_eq_getElem _ _ (by simpa using hj), getElem_map,
    getElem_range]
  rfl

/-! ## Triangles -/

/-- The triangle that a block is. -/
def fanTriangle (i : Nat) : Corners := ⟨0, i + 1, i + 2⟩

theorem fanTriangle_proper (i : Nat) : (fanTriangle i).Proper := by
  refine ⟨?_, ?_, ?_⟩ <;> simp only [fanTriangle, ne_eq] <;> omega

theorem blocks_succ (t k : Nat) : ((range' t (k + 1)).flatMap fanBlock).map Int.ofNat =
    0 :: (t + 1 : Int) :: (t + 2 : Int) :: ((range' (t + 1) k).flatMap fanBlock).map Int.ofNat := by
  rfl

theorem trianglesOf_blocks (t k : Nat) :
    trianglesOf (((range' t k).flatMap fanBlock).map Int.ofNat) =
      (range' t k).map fanTriangle := by
  induction k generalizing t with
  | zero => rfl
  | succ k ih =>
    rw [blocks_succ, trianglesOf, ih, range'_succ, map_cons]
    rfl

/-- Between the triangles of a list that is taken for a fan there are two that cover nothing. -/
theorem fanAround_blocks (x : Int) (t k : Nat) :
    (fanAround 0 (x :: ((range' t k).flatMap fanBlock).map Int.ofNat)).filter (·.Proper) =
      (range' t k).map fanTriangle := by
  induction k generalizing t x with
  | zero => rfl
  | succ k ih =>
    have hback : ¬ (Corners.mk 0 x 0).Proper := fun h => h.2.1 rfl
    have hcenter : ¬ (Corners.mk 0 0 (t + 1)).Proper := fun h => h.1 rfl
    have hproper : (Corners.mk 0 (t + 1) (t + 2)).Proper := fanTriangle_proper t
    rw [blocks_succ, fanAround, fanAround, fanAround, filter_cons_of_neg (by simpa using hback),
      filter_cons_of_neg (by simpa using hcenter),
      filter_cons_of_pos (by simpa using hproper), ih, range'_succ, map_cons]
    rfl

/-- **Whole triangles of the buffer**, whatever the backend makes of a fan. -/
theorem assemble_blocks (topology : FanTopology) (t k : Nat) :
    topology.assemble (((range' t k).flatMap fanBlock).map Int.ofNat) =
      (range' t k).map fanTriangle := by
  cases topology with
  | triangleList =>
    rw [FanTopology.assemble, trianglesOf_blocks, filter_eq_self]
    intro x hx
    obtain ⟨i, -, rfl⟩ := mem_map.mp hx
    exact decide_eq_true (fanTriangle_proper i)
  | triangleFan =>
    cases k with
    | zero => rfl
    | succ k =>
      have hproper : (Corners.mk 0 (t + 1) (t + 2)).Proper := fanTriangle_proper t
      rw [FanTopology.assemble, blocks_succ, fanOf, fanAround,
        filter_cons_of_pos (by simpa using hproper), fanAround_blocks, range'_succ,
        map_cons]
      rfl

theorem assemble_cons (topology : FanTopology) {a b c : Int} (rest : List Int)
    (h : (Corners.mk a b c).Proper) :
    ∃ others, topology.assemble (a :: b :: c :: rest) = ⟨a, b, c⟩ :: others := by
  cases topology with
  | triangleList =>
    exact ⟨_, by rw [FanTopology.assemble, trianglesOf, filter_cons_of_pos (by simpa using h)]⟩
  | triangleFan =>
    exact ⟨_, by rw [FanTopology.assemble, fanOf, fanAround,
      filter_cons_of_pos (by simpa using h)]⟩

theorem verticesFrom_succ (start : Int) (count : Nat) :
    verticesFrom start (count + 1) = start :: verticesFrom (start + 1) count := by
  rw [verticesFrom, range_succ_eq_map, map_cons, map_map, Nat.cast_zero, add_zero,
    verticesFrom]
  congr 1
  refine map_congr_left fun i _ => ?_
  rw [Function.comp_apply, Nat.cast_succ]
  omega

theorem fanAround_verticesFrom (center start : Int) (count : Nat) :
    fanAround center (verticesFrom start (count + 1)) =
      (List.range count).map fun (i : Nat) => ⟨center, start + i, start + i + 1⟩ := by
  induction count generalizing start with
  | zero => rfl
  | succ count ih =>
    rw [verticesFrom_succ, verticesFrom_succ, fanAround, ← verticesFrom_succ, ih,
      range_succ_eq_map, map_cons, map_map, Nat.cast_zero, add_zero]
    congr 1
    refine map_congr_left fun i _ => ?_
    rw [Function.comp_apply, Nat.cast_succ]
    congr 1 <;> omega

/-- **A native fan.** -/
theorem fanOf_verticesFrom (start : Int) (count : Nat) :
    fanOf (verticesFrom start count) =
      (List.range (count - 2)).map fun (i : Nat) => ⟨start, start + 1 + i, start + 1 + i + 1⟩ := by
  match count with
  | 0 | 1 => rfl
  | count + 2 => rw [verticesFrom_succ, fanOf, fanAround_verticesFrom, Nat.add_sub_cancel]

/-- Of a native fan, the center of the first triangle and the number of them. -/
theorem fanTriangles_eq_iff {t k : Nat} (hk : 1 ≤ k) (o m : Nat) :
    (range' t k).map fanTriangle = fanOf (verticesFrom o m) ↔ t = 0 ∧ o = 0 ∧ m = k + 2 := by
  rw [fanOf_verticesFrom]
  constructor
  · intro heq
    have hlength := congrArg length heq
    rw [length_map, length_map, length_range', length_range] at hlength
    obtain ⟨k, rfl⟩ : ∃ j, k = j + 1 := ⟨k - 1, by omega⟩
    rw [← hlength, range'_succ, range_succ_eq_map, map_cons, map_cons] at heq
    have hhead := (cons.inj heq).1
    simp only [fanTriangle, Corners.mk.injEq] at hhead
    omega
  · rintro ⟨rfl, rfl, rfl⟩
    rw [Nat.add_sub_cancel, range_eq_range']
    refine map_congr_left fun i _ => ?_
    simp only [fanTriangle, Corners.mk.injEq]
    omega

theorem read_wide {t n : Nat} (hn : 3 ≤ n) (h : 6 * t + n * 4 ≤ 393198) :
    ∃ rest, readIndices (fun a => createFanIndexBuffer.data.bytes (6 * t + a)) .uint32 n =
      65536 * (t + 1) :: (t + 2) :: (t + 2 + 65536 * (t + 3)) :: rest := by
  obtain ⟨n, rfl⟩ : ∃ j, n = j + 3 := ⟨n - 3, by omega⟩
  have hread := fun k (hk : k < 3) => @read_uint32 (3 * t) k (by omega)
  simp only [show 2 * (3 * t) = 6 * t by omega] at hread
  have hunit := fun i r (hi : i < 65533) (hr : r < 3) => fanIndices_at hi hr
  have hfirst := hread 0 (by decide)
  rw [Nat.mul_zero, hunit t 0 (by omega) (by decide), Nat.add_zero,
    hunit t 1 (by omega) (by decide)] at hfirst
  have hsecond := hread 1 (by decide)
  rw [Nat.mul_one, hunit t 2 (by omega) (by decide), show 3 * t + 2 + 1 = 3 * (t + 1) + 0 by omega,
    hunit (t + 1) 0 (by omega) (by decide)] at hsecond
  have hthird := hread 2 (by decide)
  rw [show 3 * t + 2 * 2 = 3 * (t + 1) + 1 by omega, hunit (t + 1) 1 (by omega) (by decide),
    Nat.add_assoc (3 * (t + 1)), hunit (t + 1) 2 (by omega) (by decide)] at hthird
  rw [readIndices, range_succ_eq_map, range_succ_eq_map, range_succ_eq_map]
  refine ⟨_, congrArg₂ _ (hfirst.trans ?_) (congrArg₂ _ (hsecond.trans ?_)
    (congrArg₂ _ (hthird.trans ?_) rfl))⟩
  all_goals simp only [fanBlock, getD_cons_zero, getD_cons_succ]
  all_goals omega

/-- **A draw from the buffer**: when it is a native fan. The center of that is not behind
the last vertex of the first triangle. -/
theorem indexed_triangles_iff (topology : FanTopology) {cmd : DrawIndexedCommand} {t k o m : Nat}
    (hbuffer : cmd.indexBuffer = createFanIndexBuffer) (hoffset : cmd.indexBufferOffset = 6 * t)
    (hcount : cmd.indexCount = 3 * k) (hk : 1 ≤ k) (ho : o ≤ t + 2) :
    (DrawOutcome.indexed cmd).triangles topology = some (fanOf (verticesFrom o m)) ↔
      cmd.indexType = .uint16 ∧ k ≤ 65533 ∧ t = 0 ∧ o = 0 ∧ m = k + 2 := by
  have hnat : cmd.indexCount.toNat = 3 * k := by omega
  rw [DrawOutcome.triangles, DrawIndexedCommand.indices, hbuffer, hoffset, hnat, fan_size]
  cases htype : cmd.indexType with
  | uint16 =>
    by_cases hroom : t + k ≤ 65533
    · rw [if_pos (by rw [IndexDataType.size]; omega), Option.map_some, read_blocks hroom,
        Option.some_inj, assemble_blocks, fanTriangles_eq_iff hk]
      constructor
      · rintro ⟨rfl, ho, hm⟩
        exact ⟨rfl, by omega, rfl, ho, hm⟩
      · rintro ⟨-, -, ht⟩
        exact ht
    · rw [if_neg (by rw [IndexDataType.size]; omega), Option.map_none]
      constructor
      · intro heq
        cases heq
      · rintro ⟨-, hle, rfl, -⟩
        omega
  | uint32 =>
    constructor
    · intro heq
      have hwide : IndexDataType.uint32.size = 4 := rfl
      rw [hwide] at heq
      split at heq
      next hroom =>
        rw [Option.map_some, Option.some_inj] at heq
        obtain ⟨rest, hread⟩ := read_wide (by omega) hroom
        have hproper : (Corners.mk ((65536 * (t + 1) : Nat) : Int) ((t + 2 : Nat) : Int)
            ((t + 2 + 65536 * (t + 3) : Nat) : Int)).Proper := by
          refine ⟨?_, ?_, ?_⟩ <;> simp only [ne_eq, Nat.cast_inj] <;> omega
        obtain ⟨others, hassemble⟩ := assemble_cons topology (rest.map Int.ofNat) hproper
        rw [hread, map_cons, map_cons, map_cons] at heq
        have heq := hassemble.symm.trans heq
        rw [fanOf_verticesFrom] at heq
        match hm : m - 2, heq with
        | j + 1, heq =>
          rw [range_succ_eq_map, map_cons] at heq
          have hhead := congrArg Corners.a (cons.inj heq).1
          have hhead : ((65536 * (t + 1) : Nat) : Int) = o := hhead
          omega
      · cases heq
    · rintro ⟨heq, -⟩
      cases heq

end Lhatove.Graphics
