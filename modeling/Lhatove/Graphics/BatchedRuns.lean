import Lhatove.Graphics.BatchedDraws

/-!
# Batches over whole runs

What has been requested since the last flush is in the buffers, one request
behind the other (`Open`). A flush issues it as one draw.

- `fillIndices_own`: the indices of a request are those of its own vertices;
- `flush_open`, `append_open`: what the two halves of a request do to a batch;
- `batching_transparent`: what is drawn, in every state of every run in which
  the requests are ones that the function is right for (`Drawable`).
-/

namespace Lhatove.Graphics

open BatchedDrawState List StreamBuffer
open BitVec (ofInt)

/-! ## Numbers -/

variable {n : Int}

theorem wrapInt_eq (h : -2 ^ 31 ≤ n) (h' : n < 2 ^ 31) : wrapInt n = n := by
  exact Int.bmod_eq_of_le (by norm_num; omega) (by norm_num; omega)

theorem sizeT_eq (h : 0 ≤ n) (h' : n < 2 ^ 64) : sizeT n = n.toNat := by
  rw [sizeT, Int.emod_eq_of_lt h h']

theorem ofInt_toNat (h : 0 ≤ n) (h' : n ≤ 65535) : (ofInt 16 n).toNat = n.toNat := by
  rw [BitVec.toNat_ofInt]
  congr 1
  exact Int.emod_eq_of_lt h (by norm_num; omega)

theorem vertex_toNat {start : Int} (hstart : 0 ≤ start) (h : start + n ≤ 65535) {k : Nat}
    (hk : (k : Int) < n) :
    ((ofInt 16 start + .ofNat 16 k : Index).toNat : Int) = start + k := by
  rw [BitVec.toNat_add, ofInt_toNat hstart (by omega), BitVec.toNat_ofNat]
  omega

/-- How many vertices a mode makes whole triangles of. -/
def Whole (mode : TriangleIndexMode) (vertexCount : Int) : Prop :=
  match mode with
  | .none => True
  | .strip => 2 ≤ vertexCount
  | .fan => 2 ≤ vertexCount
  | .quads => 4 ∣ vertexCount

/-- Three indices for each triangle of `n` vertices. -/
def triangleIndices (mode : TriangleIndexMode) (n : Int) : Int :=
  match mode with
  | .none => 0
  | .strip => 3 * (n - 2)
  | .fan => 3 * (n - 2)
  | .quads => 6 * (n / 4)

variable {mode : TriangleIndexMode}

theorem getIndexCount_eq (hpos : 1 ≤ n) (hn : n ≤ 65535)
    (hwhole : Whole mode n) : getIndexCount mode n = triangleIndices mode n := by
  cases mode with
  | none => rfl
  | strip =>
    rw [getIndexCount, wrapInt_eq (n := n - 2) (by omega) (by omega), triangleIndices,
      wrapInt_eq (by omega) (by omega)]
  | fan =>
    rw [getIndexCount, wrapInt_eq (n := n - 2) (by omega) (by omega), triangleIndices,
      wrapInt_eq (by omega) (by omega)]
  | quads =>
    obtain ⟨k, rfl⟩ : 4 ∣ n := hwhole
    rw [getIndexCount, wrapInt_eq (by omega) (by omega), Int.tdiv_eq_ediv_of_nonneg (by omega),
      triangleIndices]
    omega

theorem getIndexCount_bounds (hpos : 1 ≤ n) (hn : n ≤ 65535)
    (hwhole : Whole mode n) : 0 ≤ getIndexCount mode n ∧ getIndexCount mode n ≤ 3 * n := by
  rw [getIndexCount_eq hpos hn hwhole]
  cases mode with
  | none => exact ⟨le_rfl, by simp only [triangleIndices]; omega⟩
  | strip | fan =>
    have hwhole : 2 ≤ n := hwhole
    simp only [triangleIndices]
    omega
  | quads =>
    simp only [triangleIndices]
    omega

theorem flatMap_length_const {α β : Type} {f : α → List β} {c : Nat} :
    ∀ {l : List α}, (∀ x ∈ l, (f x).length = c) → (l.flatMap f).length = c * l.length
  | [], _ => rfl
  | x :: l, h => by
    rw [flatMap_cons, length_append, h x mem_cons_self,
      flatMap_length_const fun y hy => h y (mem_cons_of_mem _ hy), length_cons,
      Nat.mul_succ, Nat.add_comm]

/-- **A request's own indices**: as many as are counted, all of them of its own
vertices. -/
theorem fillIndices_own {start : Int} (hstart : 0 ≤ start) (hpos : 1 ≤ n) (h : start + n ≤ 65535)
    (hwhole : Whole mode n) :
    ((fillIndices mode (.ofInt 16 start) (.ofInt 16 n)).length : Int) = getIndexCount mode n ∧
      ∀ x ∈ fillIndices mode (.ofInt 16 start) (.ofInt 16 n),
        start ≤ x.toNat ∧ (x.toNat : Int) < start + n := by
  have hn : (ofInt 16 n).toNat = n.toNat := ofInt_toNat (by omega) (by omega)
  have hown : ∀ {k : Nat}, (k : Int) < n →
      start ≤ ((ofInt 16 start + .ofNat 16 k : Index).toNat : Int) ∧
        ((ofInt 16 start + .ofNat 16 k : Index).toNat : Int) < start + n := fun hk => by
    rw [vertex_toNat hstart h hk]
    omega
  have hfirst : start ≤ ((ofInt 16 start).toNat : Int) ∧
      ((ofInt 16 start).toNat : Int) < start + n := by
    rw [ofInt_toNat hstart (by omega)]
    omega
  rw [getIndexCount_eq hpos (by omega) hwhole]
  cases mode with
  | none => exact ⟨rfl, fun x hx => by cases hx⟩
  | strip =>
    have hwhole : 2 ≤ n := hwhole
    rw [fillIndices, hn, triangleIndices]
    refine ⟨?_, fun x hx => ?_⟩
    · rw [flatMap_length_const (c := 3) (fun _ _ => rfl), length_range]
      omega
    · obtain ⟨index, hindex, hx⟩ := mem_flatMap.mp hx
      have hindex := mem_range.mp hindex
      simp only [mem_cons, not_mem_nil, or_false] at hx
      rcases hx with rfl | rfl | rfl
      all_goals exact hown (by omega)
  | fan =>
    have hwhole : 2 ≤ n := hwhole
    rw [fillIndices, hn, triangleIndices]
    refine ⟨?_, fun x hx => ?_⟩
    · rw [flatMap_length_const (c := 3) (fun _ _ => rfl), length_range']
      omega
    · obtain ⟨index, hindex, hx⟩ := mem_flatMap.mp hx
      have hindex := mem_range'_1.mp hindex
      simp only [mem_cons, not_mem_nil, or_false] at hx
      rcases hx with rfl | rfl | rfl
      · exact hfirst
      all_goals exact hown (by omega)
  | quads =>
    rw [fillIndices, hn, triangleIndices]
    refine ⟨?_, fun x hx => ?_⟩
    · rw [flatMap_length_const (c := 6) (fun _ _ => rfl), length_range]
      omega
    · obtain ⟨i, hi, hx⟩ := mem_flatMap.mp hx
      have hi := mem_range.mp hi
      have hplus : ∀ k : Nat, ofInt 16 start + .ofNat 16 (i * 4) + .ofNat 16 k =
          ofInt 16 start + .ofNat 16 (i * 4 + k) := fun k => by
        rw [BitVec.add_assoc, BitVec.ofNat_add]
      simp only [mem_cons, not_mem_nil, or_false] at hx
      rcases hx with rfl | rfl | rfl | rfl | rfl | rfl
      · exact hown (by omega)
      · exact (hplus 1).symm ▸ hown (by omega)
      · exact (hplus 2).symm ▸ hown (by omega)
      · exact (hplus 2).symm ▸ hown (by omega)
      · exact (hplus 1).symm ▸ hown (by omega)
      · exact (hplus 3).symm ▸ hown (by omega)

/-! ## Buffers -/

section Buffers

variable {α : Type} {unit : Nat} {b : StreamBuffer α} {map : Option MapInfo} {content : List α}

/-- A stream buffer between two frames. -/
structure Sound (unit : Nat) (b : StreamBuffer α) : Prop where
  offset_le : b.offset ≤ b.size
  aligned : unit ∣ b.offset
  size_lt : b.size < 2 ^ 63

/-- A batch has put `content`, in cells of `unit` bytes, in a buffer. -/
structure Holds (unit : Nat) (b : StreamBuffer α) (map : Option MapInfo) (content : List α) :
    Prop where
  map_eq : map = none ∧ content = [] ∨
    map = some ⟨b.offset + unit * content.length, b.getUsableSize⟩
  fits : unit * content.length ≤ b.getUsableSize
  holds : readCells b.memory (b.offset / unit) content.length = content

theorem Holds.nil (unit : Nat) (b : StreamBuffer α) : Holds unit b none [] :=
  ⟨.inl ⟨rfl, rfl⟩, Nat.zero_le _, rfl⟩

theorem Holds.map_getD (h : Holds unit b map content) :
    map.getD b.map = ⟨b.offset + unit * content.length, b.getUsableSize⟩ := by
  rcases h.map_eq with ⟨rfl, rfl⟩ | rfl
  · rfl
  · rfl

theorem Holds.append (hunit : 0 < unit) (hb : Sound unit b) (h : Holds unit b map content)
    {data : List α} (hfit : unit * (content.length + data.length) ≤ b.getUsableSize)
    {capacity start : Nat} (hcapacity : capacity = b.size / unit)
    (hstart : start = (b.offset + unit * content.length) / unit) :
    Holds unit { b with memory := writeCells b.memory capacity start data }
      (some ⟨b.offset + unit * (content ++ data).length, b.getUsableSize⟩) (content ++ data) := by
  obtain ⟨k, hk⟩ := hb.aligned
  have hoffset := hb.offset_le
  rw [getUsableSize] at hfit
  have hstart : start = k + content.length := by
    rw [hstart, hk, ← Nat.mul_add, Nat.mul_div_cancel_left _ hunit]
  have hcapacity : k + (content.length + data.length) ≤ capacity := by
    rw [hcapacity, Nat.le_div_iff_mul_le hunit, Nat.mul_comm, Nat.mul_add]
    omega
  refine ⟨.inr rfl, ?_, ?_⟩
  · rw [length_append]
    exact hfit
  · show readCells (writeCells b.memory capacity start data) (b.offset / unit) _ = _
    have hread : b.offset / unit = k := by rw [hk, Nat.mul_div_cancel_left _ hunit]
    have hcontent := h.holds
    rw [hread] at hcontent ⊢
    rw [length_append, readCells_add, readCells_writeCells_of_le (by omega), hcontent, hstart,
      readCells_writeCells (by omega)]

theorem Sound.markUsed (hb : Sound unit b) {used : Nat} (hused : used ≤ b.getUsableSize)
    (hunit : unit ∣ used) : Sound unit (b.markUsed used) := by
  rw [StreamBuffer.markUsed]
  split
  · have := hb.offset_le
    rw [getUsableSize] at hused
    exact ⟨by dsimp only; omega, Nat.dvd_add hb.aligned hunit, hb.size_lt⟩
  · exact hb

theorem usable_markUsed (b : StreamBuffer α) (used : Nat) :
    (b.markUsed used).getUsableSize = b.getUsableSize - (if b.advances then used else 0) := by
  rw [StreamBuffer.markUsed]
  split
  · exact Nat.sub_add_eq ..
  · rfl

theorem Sound.usable_lt (hb : Sound unit b) : b.getUsableSize < 2 ^ 63 :=
  (Nat.sub_le ..).trans_lt hb.size_lt

theorem Sound.grow (hb : Sound unit b) {room : Bool} {size : Nat} {b' : StreamBuffer α}
    (h : BatchedDrawState.grow room size b = some b') :
    Sound unit b' ∧ (b' = b ∧ size ≤ b.size ∨ b.size < size ∧ b'.getUsableSize = size) := by
  rw [BatchedDrawState.grow] at h
  split at h
  · next hsize =>
    rw [renew] at h
    split at h
    · next hroom =>
      cases h
      simp only [Bool.and_eq_true, decide_eq_true_eq] at hroom
      exact ⟨⟨Nat.zero_le _, dvd_zero _, hroom.2⟩, .inr ⟨hsize, rfl⟩⟩
    · cases h
  · next hsize =>
    cases h
    exact ⟨hb, .inl ⟨rfl, by omega⟩⟩

end Buffers

/-! ## What is to be drawn -/

section Batches

variable {Texture : Type}

/-- The vertices of some requests. -/
def vertexTotal (g : List (Met Texture)) : Int := (g.map (·.cmd.vertexCount)).sum

@[simp] theorem vertexTotal_append (g : List (Met Texture)) (r : Met Texture) :
    vertexTotal (g ++ [r]) = vertexTotal g + r.cmd.vertexCount := by
  simp [vertexTotal]

/-- The bytes of some requests' vertices in stream `i`. -/
def streamData (g : List (Met Texture)) (i : Fin 2) : List (BitVec 8) := g.flatMap (·.data i)

@[simp] theorem streamData_append (g : List (Met Texture)) (r : Met Texture) (i : Fin 2) :
    streamData (g ++ [r]) i = streamData g i ++ r.data i := by
  simp [streamData]

/-- The indices that were written for some requests. -/
def writtenIndices (g : List (Met Texture)) : List Index := g.flatMap (·.indices)

@[simp] theorem writtenIndices_append (g : List (Met Texture)) (r : Met Texture) :
    writtenIndices (g ++ [r]) = writtenIndices g ++ r.indices := by
  simp [writtenIndices]

/-- When the vertices of the first request are those from `base` on: as many
indices were written for each request as are counted for it, all of its own
vertices. -/
def OwnIndices (base : Int) : List (Met Texture) → Prop
  | [] => True
  | r :: g => (r.indices.length : Int) = getIndexCount r.cmd.indexMode r.cmd.vertexCount ∧
      (∀ x ∈ r.indices, base ≤ x.toNat ∧ (x.toNat : Int) < base + r.cmd.vertexCount) ∧
      OwnIndices (base + r.cmd.vertexCount) g

/-- **A draw that is some requests**, in their order: it has the modes of each,
their vertices and the indices that were written for each, of its own vertices. -/
structure Draws (g : List (Met Texture)) (d : GpuDraw Texture) : Prop where
  ne_nil : g ≠ []
  modes : ∀ r ∈ g, r.cmd.modes = d.modes
  vertexCount : d.vertexCount = vertexTotal g
  streams : ∀ i, d.streams i = streamData g i
  indices : d.indices = writtenIndices g
  own : OwnIndices 0 g

theorem OwnIndices.append {r : Met Texture}
    (hlength : (r.indices.length : Int) = getIndexCount r.cmd.indexMode r.cmd.vertexCount) :
    ∀ {g : List (Met Texture)} {base : Int}, OwnIndices base g →
      (∀ x ∈ r.indices, base + vertexTotal g ≤ x.toNat ∧
        (x.toNat : Int) < base + vertexTotal g + r.cmd.vertexCount) →
      OwnIndices base (g ++ [r])
  | [], base, _, hown => by
    refine ⟨hlength, fun x hx => ?_, trivial⟩
    have hx := hown x hx
    rwa [show vertexTotal ([] : List (Met Texture)) = 0 from rfl, Int.add_zero] at hx
  | r₀ :: g, base, h, hown => by
    obtain ⟨hlength₀, hown₀, hrest⟩ := h
    refine ⟨hlength₀, hown₀, hrest.append hlength fun x hx => ?_⟩
    have hx := hown x hx
    have htotal : vertexTotal (r₀ :: g) = r₀.cmd.vertexCount + vertexTotal g := sum_cons
    omega

theorem OwnIndices.eq_nil :
    ∀ {g : List (Met Texture)} {base : Int}, OwnIndices base g →
      (∀ r ∈ g, r.cmd.indexMode = .none) → writtenIndices g = []
  | [], _, _, _ => rfl
  | r :: g, _, h, hg => by
    obtain ⟨hlength, -, hrest⟩ := h
    rw [hg r mem_cons_self] at hlength
    have hnil : r.indices = [] := length_eq_zero_iff.mp (Int.ofNat.inj hlength)
    have hcons : writtenIndices (r :: g) = r.indices ++ writtenIndices g := flatMap_cons
    rw [hcons, hnil, nil_append, hrest.eq_nil fun r' h' => hg r' (mem_cons_of_mem _ h')]

/-- **The batch**: `g` has been requested since the last flush. -/
structure Open (s : BatchedDrawState Texture) (g : List (Met Texture)) : Prop where
  sound : ∀ i, Sound 1 (s.vb i)
  indexSound : Sound 2 s.indexBuffer
  modes : ∀ r ∈ g, r.cmd.modes = s.modes
  pos : ∀ r ∈ g, 1 ≤ r.cmd.vertexCount
  drawn : g ≠ [] → ∃ i, s.modes.formats i ≠ .none
  vertexCount : s.vertexCount = vertexTotal g
  bound : s.vertexCount < 2 ^ 31
  indexedBound : s.modes.indexedDraw = true → s.vertexCount ≤ 65535
  streams : ∀ i, Holds 1 (s.vb i) (s.vbMap i) (streamData g i)
  indices : Holds 2 s.indexBuffer s.indexBufferMap (writtenIndices g)
  own : OwnIndices 0 g
  indexCount : s.indexCount = (writtenIndices g).length
  three : s.indexCount ≤ 3 * s.vertexCount
  unmapped : ∀ i, s.modes.formats i = .none → s.vbMap i = none
  indexUnmapped : s.modes.indexedDraw = false → s.indexBufferMap = none
  idle : g = [] → (∀ i, s.vbMap i = none) ∧ s.indexBufferMap = none

theorem indexed_iff {cmd : BatchedDrawCommand Texture} :
    cmd.modes.indexedDraw = true ↔ cmd.indexMode ≠ .none := decide_eq_true_iff

theorem not_indexed_iff {cmd : BatchedDrawCommand Texture} :
    cmd.modes.indexedDraw = false ↔ cmd.indexMode = .none := by
  rw [← Bool.not_eq_true, indexed_iff, not_not]

variable {s : BatchedDrawState Texture} {g : List (Met Texture)}

theorem vertexTotal_pos :
    ∀ {g : List (Met Texture)}, (∀ r ∈ g, 1 ≤ r.cmd.vertexCount) → g ≠ [] → 1 ≤ vertexTotal g
  | [], _, h => (h rfl).elim
  | [r], h, _ => by
    have := h r mem_cons_self
    simpa [vertexTotal] using this
  | r :: r' :: g, h, _ => by
    have hr := h r mem_cons_self
    have hg := vertexTotal_pos (fun x hx => h x (mem_cons_of_mem _ hx)) (cons_ne_nil r' g)
    have htotal : vertexTotal (r :: r' :: g) = r.cmd.vertexCount + vertexTotal (r' :: g) :=
      sum_cons
    omega

theorem Open.nonneg (h : Open s g) : 0 ≤ s.vertexCount := by
  rw [h.vertexCount]
  by_cases hg : g = []
  · subst hg
    exact le_rfl
  · exact (Int.zero_le_ofNat 1).trans (vertexTotal_pos h.pos hg)

theorem streamData_length {formats : Fin 2 → CommonFormat} {i : Fin 2} :
    ∀ {g : List (Met Texture)}, (∀ r ∈ g, r.cmd.formats = formats) →
      ((streamData g i).length : Int) = getFormatStride (formats i) * vertexTotal g
  | [], _ => (Int.mul_zero _).symm
  | r :: g, h => by
    have hg := streamData_length (i := i) fun x hx => h x (mem_cons_of_mem _ hx)
    have hr := r.data_length i
    rw [h r mem_cons_self] at hr
    have htotal : vertexTotal (r :: g) = r.cmd.vertexCount + vertexTotal g := sum_cons
    have hdata : streamData (r :: g) i = r.data i ++ streamData g i := flatMap_cons
    rw [hdata, length_append, Nat.cast_add, hr, hg, htotal, Int.mul_add]

theorem Open.streamData_length (h : Open s g) (i : Fin 2) :
    ((streamData g i).length : Int) = getFormatStride (s.modes.formats i) * s.vertexCount := by
  rw [h.vertexCount]
  exact Graphics.streamData_length fun r hr => congrArg Modes.formats (h.modes r hr)

theorem stride_le (f : CommonFormat) : getFormatStride f ≤ 24 := by
  cases f <;> decide

theorem stride_pos {f : CommonFormat} (h : f ≠ .none) : 4 ≤ getFormatStride f := by
  cases f with
  | none => exact (h rfl).elim
  | _ => decide

theorem Open.usedSize_eq (h : Open s g) (i : Fin 2) : s.usedSize i = (streamData g i).length := by
  have hlength := h.streamData_length i
  have hstride := stride_le (s.modes.formats i)
  have hbound := h.bound
  rw [usedSize, ← hlength, sizeT_eq (by omega), Int.toNat_natCast]
  rw [hlength]
  nlinarith [h.nonneg]

/-! ## Flushing -/

theorem Open.vertexCount_pos (h : Open s g) (hg : g ≠ []) : 1 ≤ s.vertexCount := by
  rw [h.vertexCount]
  exact vertexTotal_pos h.pos hg

theorem Open.indexCount_bounds (h : Open s g) :
    0 ≤ s.indexCount ∧ s.indexCount ≤ 3 * 65535 := by
  have hcount := h.indexCount
  have hthree := h.three
  cases hindexed : s.modes.indexedDraw with
  | false =>
    rw [h.own.eq_nil fun r hr => not_indexed_iff.mp (h.modes r hr ▸ hindexed)] at hcount
    rw [hcount]
    decide
  | true =>
    have := h.indexedBound hindexed
    omega

theorem Open.batchedDraw (h : Open s g) (hg : g ≠ []) : Draws g s.batchedDraw := by
  refine ⟨hg, h.modes, h.vertexCount, fun i => ?_, ?_, h.own⟩
  · have hholds := (h.streams i).holds
    rw [Nat.div_one] at hholds
    by_cases hi : s.modes.formats i = .none
    · have hlength := h.streamData_length i
      rw [hi, getFormatStride, Nat.cast_zero, Int.zero_mul, Int.natCast_eq_zero,
        length_eq_zero_iff] at hlength
      rw [hlength]
      exact if_pos hi
    · rw [← hholds, ← h.usedSize_eq i]
      exact if_neg hi
  · cases hindexed : s.modes.indexedDraw with
    | false =>
      rw [h.own.eq_nil fun r hr => not_indexed_iff.mp (h.modes r hr ▸ hindexed)]
      simp [BatchedDrawState.batchedDraw, hindexed]
    | true =>
      simp only [BatchedDrawState.batchedDraw, hindexed, h.indexCount, Int.toNat_natCast, if_true]
      exact h.indices.holds

theorem Open.flush_nil (h : Open s []) : s.flushBatchedDraws = s :=
  if_pos ⟨h.vertexCount, h.indexCount⟩

theorem Open.nil (hsound : ∀ i, Sound 1 (s.vb i)) (hindex : Sound 2 s.indexBuffer)
    (hvertices : s.vertexCount = 0) (hindices : s.indexCount = 0) (hmaps : ∀ i, s.vbMap i = none)
    (hmap : s.indexBufferMap = none) : Open s [] where
  sound := hsound
  indexSound := hindex
  modes r hr := (not_mem_nil hr).elim
  pos r hr := (not_mem_nil hr).elim
  drawn h := (h rfl).elim
  vertexCount := hvertices
  bound := by omega
  indexedBound _ := by omega
  streams i := hmaps i ▸ .nil ..
  indices := hmap ▸ .nil ..
  own := trivial
  indexCount := hindices
  three := by omega
  unmapped i _ := hmaps i
  indexUnmapped _ := hmap
  idle _ := ⟨hmaps, hmap⟩

theorem Open.flush_eq (h : Open s g) (hg : g ≠ []) :
    s.flushBatchedDraws =
      { s with
        vbMap := fun i => if s.modes.formats i = .none then s.vbMap i else none
        draws := s.draws ++ [s.batchedDraw]
        vb := fun i =>
          if s.modes.formats i = .none then s.vb i else (s.vb i).markUsed (s.usedSize i)
        indexBuffer :=
          if s.modes.indexedDraw then s.indexBuffer.markUsed s.usedIndexSize else s.indexBuffer
        indexBufferMap := if s.modes.indexedDraw then none else s.indexBufferMap
        vertexCount := 0
        indexCount := 0 } := by
  have hpos := h.vertexCount_pos hg
  obtain ⟨i, hi⟩ := h.drawn hg
  rw [BatchedDrawState.flushBatchedDraws, if_neg (by omega)]
  exact if_neg fun hall => hi (hall i)

/-- The bytes that a flush takes from a stream buffer. -/
def usedBy (s : BatchedDrawState Texture) (i : Fin 2) : Nat :=
  if (s.vb i).advances then s.usedSize i else 0

/-- The bytes that a flush takes from the index buffer. -/
def usedIndicesBy (s : BatchedDrawState Texture) : Nat :=
  if s.indexBuffer.advances then s.usedIndexSize else 0

theorem Open.usedIndexSize_eq (h : Open s g) :
    s.usedIndexSize = 2 * (writtenIndices g).length := by
  have hbounds := h.indexCount_bounds
  have hcount := h.indexCount
  rw [usedIndexSize, sizeT_eq (by omega) (by omega)]
  omega

/-- **A flush** issues the batch as one draw, and nothing is open then. -/
theorem Open.flush (h : Open s g) (hg : g ≠ []) :
    Open s.flushBatchedDraws [] ∧ s.flushBatchedDraws.draws = s.draws ++ [s.batchedDraw] := by
  rw [h.flush_eq hg]
  have hidle : ∀ i, (if s.modes.formats i = .none then s.vbMap i else none) = none := fun i => by
    split
    · next hi => exact h.unmapped i hi
    · rfl
  have hidle' : (if s.modes.indexedDraw then none else s.indexBufferMap) = none := by
    split
    · rfl
    · next hi => exact h.indexUnmapped (Bool.eq_false_iff.mpr hi)
  refine ⟨.nil (fun i => ?_) ?_ rfl rfl hidle hidle', rfl⟩
  · dsimp only
    split
    · exact h.sound i
    · refine (h.sound i).markUsed ?_ (one_dvd _)
      rw [h.usedSize_eq i, ← Nat.one_mul (streamData g i).length]
      exact (h.streams i).fits
  · dsimp only
    split
    · rw [h.usedIndexSize_eq]
      exact h.indexSound.markUsed h.indices.fits (Nat.dvd_mul_right ..)
    · exact h.indexSound

/-! ## Requests -/

/-- A request that the function is right for: of no more vertices than an `int`
has, with something to draw, in whole triangles of no more vertices than 16 bits
count; and if the batch before it is in a larger format, with room for both. -/
structure Drawable (s : BatchedDrawState Texture) (cmd : BatchedDrawCommand Texture) : Prop where
  pos : 1 ≤ cmd.vertexCount
  int : cmd.vertexCount < 2 ^ 31
  drawn : ∃ i, cmd.formats i ≠ .none
  indexed : cmd.indexMode ≠ .none → cmd.vertexCount ≤ 65535 ∧ Whole cmd.indexMode cmd.vertexCount
  room : ∀ i, (s.vb i).advances = true →
    getFormatStride (cmd.formats i) * (s.vertexCount + cmd.vertexCount) ≤ (s.vb i).getUsableSize →
    getFormatStride (s.modes.formats i) * s.vertexCount +
      getFormatStride (cmd.formats i) * cmd.vertexCount ≤ (s.vb i).getUsableSize

/-- There is room for the request, behind what is in the buffers. -/
structure Fits (s : BatchedDrawState Texture) (cmd : BatchedDrawCommand Texture) : Prop where
  total : s.vertexCount + cmd.vertexCount < 2 ^ 31
  indexed : cmd.indexMode ≠ .none → s.vertexCount + cmd.vertexCount ≤ 65535
  streams : ∀ i, getFormatStride (cmd.formats i) * (s.vertexCount + cmd.vertexCount) ≤
    ((s.vb i).getUsableSize : Int)
  indices : cmd.indexMode ≠ .none →
    2 * (s.indexCount + getIndexCount cmd.indexMode cmd.vertexCount) ≤
      (s.indexBuffer.getUsableSize : Int)

theorem Drawable.indexCount_bounds {cmd : BatchedDrawCommand Texture} (hd : Drawable s cmd) :
    0 ≤ getIndexCount cmd.indexMode cmd.vertexCount ∧
      getIndexCount cmd.indexMode cmd.vertexCount ≤ 3 * cmd.vertexCount ∧
      getIndexCount cmd.indexMode cmd.vertexCount ≤ 3 * 65535 := by
  have hpos := hd.pos
  by_cases hmode : cmd.indexMode = .none
  · rw [hmode, getIndexCount]
    omega
  · obtain ⟨hcount, hwhole⟩ := hd.indexed hmode
    have := getIndexCount_bounds hpos hcount hwhole
    omega

variable {r : Request Texture}

theorem newDataSize_eq (hd : Drawable s r.cmd) (i : Fin 2) :
    newDataSize r.cmd i = (r.data i).length := by
  have hlength := r.data_length i
  have hstride := stride_le (r.cmd.formats i)
  have hint := hd.int
  rw [newDataSize]
  split
  · next hi =>
    rw [hi, getFormatStride, Nat.cast_zero, Int.zero_mul] at hlength
    omega
  · rw [← hlength, sizeT_eq (by omega), Int.toNat_natCast]
    rw [hlength]
    nlinarith [hd.pos]

theorem newIndices_own (h : Open s g) (hd : Drawable s r.cmd) (hfits : Fits s r.cmd) :
    ((newIndices r.cmd s).length : Int) =
      getIndexCount r.cmd.indexMode r.cmd.vertexCount ∧
    ∀ x ∈ newIndices r.cmd s,
      0 + vertexTotal g ≤ x.toNat ∧ (x.toNat : Int) < 0 + vertexTotal g + r.cmd.vertexCount := by
  rw [Int.zero_add, ← h.vertexCount, newIndices]
  by_cases hmode : r.cmd.indexMode = .none
  · rw [hmode]
    exact ⟨rfl, fun x hx => (not_mem_nil hx).elim⟩
  · exact fillIndices_own h.nonneg hd.pos (hfits.indexed hmode) (hd.indexed hmode).2

/-- The request, met. -/
def met (r : Request Texture) (s : BatchedDrawState Texture) : Met Texture :=
  ⟨r, BatchedDrawState.newIndices r.cmd s⟩

section Append

/-- The state once the caller has filled what it was given. -/
def appended (r : Request Texture) (s : BatchedDrawState Texture) : BatchedDrawState Texture :=
  (BatchedDrawState.append r.cmd s).2.fillStreams (BatchedDrawState.append r.cmd s).1 r.data

theorem append_vb (cmd : BatchedDrawCommand Texture) (s : BatchedDrawState Texture) :
    (append cmd s).2.vb = s.vb := by
  rw [append]
  split <;> rfl

theorem appended_modes (r : Request Texture) (s : BatchedDrawState Texture) :
    (appended r s).modes = s.modes ∧ (appended r s).draws = s.draws := by
  rw [appended, fillStreams, append]
  split <;> exact ⟨rfl, rfl⟩

section

variable (h : Open s g) (hmodes : r.cmd.modes = s.modes) (hd : Drawable s r.cmd)
  (hfits : Fits s r.cmd)
include h hmodes hd hfits

theorem Open.append_stream (i : Fin 2) :
    Sound 1 ((appended r s).vb i) ∧
      Holds 1 ((appended r s).vb i) ((appended r s).vbMap i) (streamData (g ++ [met r s]) i) ∧
      (s.modes.formats i = .none → (appended r s).vbMap i = none) := by
  have hnew := newDataSize_eq hd i
  have hformats : r.cmd.formats = s.modes.formats := congrArg Modes.formats hmodes
  have hvb : (appended r s).vb i =
      (s.vb i).fill ((append r.cmd s).1 i) (r.data i) := by
    rw [appended, fillStreams, append_vb]
  have hmap : (appended r s).vbMap i =
      if 0 < newDataSize r.cmd i then
        some ⟨sizeT (((s.vbMap i).getD (s.vb i).map).data + newDataSize r.cmd i),
          ((s.vbMap i).getD (s.vb i).map).size⟩
      else s.vbMap i := rfl
  have hstream : (append r.cmd s).1 i =
      if 0 < newDataSize r.cmd i then
        some ((s.vbMap i).getD (s.vb i).map).data
      else none := rfl
  rw [hvb, hmap, hstream, hnew, streamData_append, (h.streams i).map_getD]
  change Sound 1 _ ∧ Holds 1 _ _ (streamData g i ++ r.data i) ∧ _
  by_cases hdata : 0 < (r.data i).length
  · rw [if_pos hdata, if_pos hdata, fill]
    dsimp only
    have hfit : 1 * ((streamData g i).length + (r.data i).length) ≤ (s.vb i).getUsableSize := by
      have hlength := r.data_length i
      have hcontent := h.streamData_length i
      have hroom := hfits.streams i
      rw [← hformats] at hcontent
      rw [Int.mul_add, ← hcontent, ← hlength] at hroom
      omega
    have hsound := h.sound i
    have haddress : sizeT (((s.vb i).offset + 1 * (streamData g i).length : Nat) +
        ((r.data i).length : Int)) =
          (s.vb i).offset + 1 * (streamData g i ++ r.data i).length := by
      have hsize := hsound.size_lt
      rw [getUsableSize] at hfit
      rw [sizeT_eq (by omega) (by omega), length_append]
      omega
    refine ⟨⟨hsound.offset_le, hsound.aligned, hsound.size_lt⟩, ?_, fun hi => ?_⟩
    · rw [haddress]
      exact (h.streams i).append Nat.one_pos hsound hfit (Nat.div_one _).symm (Nat.div_one _).symm
    · have hlength := r.data_length i
      rw [hformats, hi, getFormatStride, Nat.cast_zero, Int.zero_mul] at hlength
      omega
  · rw [if_neg hdata, if_neg hdata, length_eq_zero_iff.mp (Nat.eq_zero_of_not_pos hdata),
      append_nil]
    exact ⟨h.sound i, h.streams i, h.unmapped i⟩

theorem Open.append_indices :
    Sound 2 (appended r s).indexBuffer ∧
      Holds 2 (appended r s).indexBuffer (appended r s).indexBufferMap
        (writtenIndices g ++ newIndices r.cmd s) ∧
      (s.modes.indexedDraw = false → (appended r s).indexBufferMap = none) := by
  obtain ⟨hlength, -⟩ := newIndices_own h hd hfits
  by_cases hmode : r.cmd.indexMode = .none
  · have hsame : (appended r s).indexBuffer = s.indexBuffer ∧
        (appended r s).indexBufferMap = s.indexBufferMap := by
      rw [appended, fillStreams, append]
      rw [if_pos hmode]
      exact ⟨rfl, rfl⟩
    have hnil : newIndices r.cmd s = [] := by
      rw [newIndices, hmode]
      rfl
    rw [hnil, append_nil, hsame.1, hsame.2]
    exact ⟨h.indexSound, h.indices, h.indexUnmapped⟩
  · have hwritten : (appended r s).indexBuffer =
        { s.indexBuffer with
          memory := writeCells s.indexBuffer.memory (s.indexBuffer.size / 2)
            ((s.indexBufferMap.getD s.indexBuffer.map).data / 2)
            (newIndices r.cmd s) } ∧
        (appended r s).indexBufferMap =
          some ⟨sizeT ((s.indexBufferMap.getD s.indexBuffer.map).data +
            reqIndexSize r.cmd),
            (s.indexBufferMap.getD s.indexBuffer.map).size⟩ := by
      rw [appended, fillStreams, append]
      rw [if_neg hmode]
      exact ⟨rfl, rfl⟩
    have hroom := hfits.indices hmode
    rw [h.indexCount, ← hlength] at hroom
    rw [hwritten.1, hwritten.2, h.indices.map_getD]
    have hfit : 2 * ((writtenIndices g).length + (newIndices r.cmd s).length) ≤
        s.indexBuffer.getUsableSize := by omega
    have hsound := h.indexSound
    have haddress : sizeT ((s.indexBuffer.offset + 2 * (writtenIndices g).length : Nat) +
        (reqIndexSize r.cmd : Int)) = s.indexBuffer.offset +
          2 * (writtenIndices g ++ newIndices r.cmd s).length := by
      have hsize := hsound.size_lt
      have hoffset := hsound.offset_le
      rw [getUsableSize] at hfit
      have hreq : reqIndexSize r.cmd =
          2 * (newIndices r.cmd s).length := by
        rw [reqIndexSize, sizeT_eq (by omega) (by omega)]
        omega
      rw [hreq, sizeT_eq (by omega) (by omega), length_append]
      omega
    refine ⟨⟨hsound.offset_le, hsound.aligned, hsound.size_lt⟩, ?_, fun hindexed => ?_⟩
    · dsimp only
      rw [haddress]
      exact h.indices.append Nat.two_pos hsound hfit rfl rfl
    · exact (hmode (not_indexed_iff.mp (hmodes ▸ hindexed))).elim

/-- **A request** is put behind the others of the batch. -/
theorem Open.append : Open (appended r s) (g ++ [met r s]) := by
  have htotal := hfits.total
  have hpos := hd.pos
  obtain ⟨hlength, hown⟩ := newIndices_own h hd hfits
  obtain ⟨hindexSound, hholds, hindexUnmapped⟩ := h.append_indices hmodes hd hfits
  have hthree := h.three
  have hcount := h.indexCount_bounds
  obtain ⟨hcount₀, hcount₁, hcount₂⟩ := hd.indexCount_bounds
  have hvertices : (appended r s).vertexCount = s.vertexCount + r.cmd.vertexCount :=
    wrapInt_eq (by omega) htotal
  have hindices : (appended r s).indexCount =
      s.indexCount + getIndexCount r.cmd.indexMode r.cmd.vertexCount :=
    wrapInt_eq (by omega) (by omega)
  obtain ⟨hmodes', -⟩ := appended_modes r s
  have hmem : ∀ {p : Met Texture → Prop}, (∀ x ∈ g, p x) → p (met r s) →
      ∀ x ∈ g ++ [met r s], p x :=
    fun hg hr x hx => (mem_append.mp hx).elim (hg x) fun hx => mem_singleton.mp hx ▸ hr
  exact
    { sound := fun i => (h.append_stream hmodes hd hfits i).1
      indexSound := hindexSound
      modes := hmodes' ▸ hmem h.modes hmodes
      pos := hmem h.pos hpos
      drawn := fun _ => by
        rw [hmodes', ← hmodes]
        exact hd.drawn
      vertexCount := by
        rw [hvertices, vertexTotal_append, h.vertexCount]
        rfl
      bound := hvertices ▸ htotal
      indexedBound := fun hindexed => by
        rw [hmodes', ← hmodes] at hindexed
        exact hvertices ▸ hfits.indexed (indexed_iff.mp hindexed)
      streams := fun i => (h.append_stream hmodes hd hfits i).2.1
      indices := by
        rw [writtenIndices_append]
        exact hholds
      own := h.own.append hlength hown
      indexCount := by
        rw [hindices, writtenIndices_append, length_append, h.indexCount, ← hlength]
        rfl
      three := by omega
      unmapped := fun i hi => (h.append_stream hmodes hd hfits i).2.2 (hmodes' ▸ hi)
      indexUnmapped := fun hindexed => hindexUnmapped (hmodes' ▸ hindexed)
      idle := fun hnil => (append_ne_nil_of_right_ne_nil _ (cons_ne_nil _ _) hnil).elim }

end

end Append

/-! ## Room for a request -/

section Room

variable {cmd : BatchedDrawCommand Texture} {s₀ : BatchedDrawState Texture}

theorem dataSize_of_lt (hn : 0 ≤ s.vertexCount) (hv : 0 ≤ cmd.vertexCount)
    (htotal : s.vertexCount + cmd.vertexCount < 2 ^ 31) (i : Fin 2) :
    (BatchedDrawState.dataSize cmd s i : Int) =
      getFormatStride (cmd.formats i) * (s.vertexCount + cmd.vertexCount) := by
  have hstride := stride_le (cmd.formats i)
  have hdata : 0 ≤ (getFormatStride (cmd.formats i) : Int) * (s.vertexCount + cmd.vertexCount) :=
    Int.mul_nonneg (Int.natCast_nonneg _) (by omega)
  rw [BatchedDrawState.dataSize, wrapInt_eq (by omega) htotal, sizeT_eq hdata (by nlinarith),
    Int.toNat_of_nonneg hdata]

/-- More vertices than an `int` has are never requested: no buffer is large
enough for what their number wraps to. -/
theorem dataSize_of_le (hn : s.vertexCount < 2 ^ 31) (hv : cmd.vertexCount < 2 ^ 31)
    (htotal : 2 ^ 31 ≤ s.vertexCount + cmd.vertexCount) {i : Fin 2} (hi : cmd.formats i ≠ .none) :
    2 ^ 63 ≤ BatchedDrawState.dataSize cmd s i := by
  have hstride := stride_le (cmd.formats i)
  have hstride' := stride_pos hi
  have hwrap : wrapInt (s.vertexCount + cmd.vertexCount) =
      s.vertexCount + cmd.vertexCount - 2 ^ 32 := by
    rw [wrapInt, ← Int.sub_bmod_right, Nat.cast_pow, Nat.cast_ofNat]
    exact wrapInt_eq (by omega) (by omega)
  have hlow : -(24 * 2 ^ 31 : Int) ≤ (getFormatStride (cmd.formats i) : Int) *
      (s.vertexCount + cmd.vertexCount - 2 ^ 32) := by
    nlinarith
  have hneg : (getFormatStride (cmd.formats i) : Int) *
      (s.vertexCount + cmd.vertexCount - 2 ^ 32) < 0 := by
    nlinarith
  rw [BatchedDrawState.dataSize, hwrap, sizeT]
  omega

theorem dataSize_eq (h : Open s g) (hd : Drawable s cmd)
    (htotal : s.vertexCount + cmd.vertexCount < 2 ^ 31) (i : Fin 2) :
    (BatchedDrawState.dataSize cmd s i : Int) =
      getFormatStride (cmd.formats i) * (s.vertexCount + cmd.vertexCount) :=
  dataSize_of_lt h.nonneg (by have := hd.pos; omega) htotal i

theorem total_lt (h : Open s g) (hd : Drawable s cmd)
    (hdata : ∀ i, cmd.formats i ≠ .none → BatchedDrawState.dataSize cmd s i < 2 ^ 63) :
    s.vertexCount + cmd.vertexCount < 2 ^ 31 := by
  by_contra htotal
  obtain ⟨i, hi⟩ := hd.drawn
  have hwrapped := dataSize_of_le h.bound hd.int (by omega) hi
  have := hdata i hi
  omega

theorem indexDataSize_eq (h : Open s g) (hd : Drawable s cmd) :
    (indexDataSize cmd s : Int) =
      2 * (s.indexCount + getIndexCount cmd.indexMode cmd.vertexCount) := by
  have hcount := h.indexCount_bounds
  have hnew := hd.indexCount_bounds
  rw [indexDataSize, wrapInt_eq (by omega) (by omega),
    sizeT_eq (by omega) (by omega), Int.toNat_of_nonneg (by omega)]

theorem flush_vb (h : Open s g) (i : Fin 2) :
    (s.flushBatchedDraws.vb i).size = (s.vb i).size ∧
      ((s.vb i).advances = false →
        (s.flushBatchedDraws.vb i).getUsableSize = (s.vb i).getUsableSize) ∧
      ((s.vb i).getUsableSize : Int) ≤ (s.flushBatchedDraws.vb i).getUsableSize +
        getFormatStride (s.modes.formats i) * s.vertexCount := by
  have hlength := h.streamData_length i
  by_cases hg : g = []
  · subst hg
    rw [h.flush_nil]
    exact ⟨rfl, fun _ => rfl, by omega⟩
  · rw [h.flush_eq hg]
    dsimp only
    split
    · exact ⟨rfl, fun _ => rfl, by omega⟩
    · rw [usable_markUsed, h.usedSize_eq, ← hlength]
      refine ⟨?_, fun hadvances => ?_, ?_⟩
      · rw [StreamBuffer.markUsed]
        split <;> rfl
      · rw [hadvances]
        rfl
      · split <;> omega

theorem flush_indexBuffer (h : Open s g) :
    s.flushBatchedDraws.indexBuffer.size = s.indexBuffer.size ∧
      (s.indexBuffer.getUsableSize : Int) ≤
        s.flushBatchedDraws.indexBuffer.getUsableSize + 2 * s.indexCount := by
  have hcount := h.indexCount
  by_cases hg : g = []
  · subst hg
    rw [h.flush_nil]
    exact ⟨rfl, by omega⟩
  · rw [h.flush_eq hg]
    dsimp only
    split
    · rw [usable_markUsed, h.usedIndexSize_eq]
      refine ⟨?_, by split <;> omega⟩
      rw [StreamBuffer.markUsed]
      split <;> rfl
    · exact ⟨rfl, by omega⟩

theorem stream_room (h : Open s g) (hd : Drawable s cmd)
    (htotal : s.vertexCount + cmd.vertexCount < 2 ^ 31) {i : Fin 2}
    (hi : BatchedDrawState.dataSize cmd s i ≤ (s.vb i).getUsableSize) :
    getFormatStride (cmd.formats i) * cmd.vertexCount ≤
      ((s.flushBatchedDraws.vb i).getUsableSize : Int) := by
  have hdata := dataSize_eq h hd htotal i
  obtain ⟨-, hsame, hused⟩ := flush_vb h i
  have hvertices : 0 ≤ (getFormatStride (cmd.formats i) : Int) * s.vertexCount :=
    Int.mul_nonneg (Int.natCast_nonneg _) h.nonneg
  have hroom := hd.room i
  rw [Int.mul_add] at hdata hroom
  cases hadvances : (s.vb i).advances with
  | false =>
    rw [hsame hadvances]
    omega
  | true =>
    have := hroom hadvances (by omega)
    omega

variable {room : Bool} {s' : BatchedDrawState Texture}

theorem Open.resize (h : Open s []) {sizes : Fin 2 → Nat} {indexSize : Nat}
    (hs' : BatchedDrawState.resize room sizes indexSize s = some s') :
    Open s' [] ∧ s'.modes = s.modes ∧ s'.draws = s.draws ∧
      (∀ i, s'.vb i = s.vb i ∧ sizes i ≤ (s.vb i).size ∨
        (s.vb i).size < sizes i ∧ (s'.vb i).getUsableSize = sizes i) ∧
      (s'.indexBuffer = s.indexBuffer ∧ indexSize ≤ s.indexBuffer.size ∨
        s.indexBuffer.size < indexSize ∧ s'.indexBuffer.getUsableSize = indexSize) ∧
      ∀ i, sizes i < 2 ^ 63 := by
  rw [BatchedDrawState.resize] at hs'
  split at hs'
  · next vb₀ vb₁ indexBuffer h₀ h₁ h₂ =>
    cases hs'
    obtain ⟨hsound₀, hsize₀⟩ := (h.sound 0).grow h₀
    obtain ⟨hsound₁, hsize₁⟩ := (h.sound 1).grow h₁
    obtain ⟨hsound₂, hsize₂⟩ := h.indexSound.grow h₂
    have hsound : ∀ i : Fin 2, Sound 1 (if i = 0 then vb₀ else vb₁) :=
      Fin.forall_fin_two.mpr ⟨hsound₀, hsound₁⟩
    have hsizes : ∀ i : Fin 2, (if i = 0 then vb₀ else vb₁) = s.vb i ∧ sizes i ≤ (s.vb i).size ∨
        (s.vb i).size < sizes i ∧ (if i = 0 then vb₀ else vb₁).getUsableSize = sizes i :=
      Fin.forall_fin_two.mpr ⟨hsize₀, hsize₁⟩
    refine ⟨.nil hsound hsound₂ h.vertexCount h.indexCount (h.idle rfl).1 (h.idle rfl).2, rfl, rfl,
      hsizes, hsize₂, fun i => ?_⟩
    have hlt := (hsound i).size_lt
    have hlt' := (h.sound i).size_lt
    rcases hsizes i with ⟨-, hsize⟩ | ⟨-, hsize⟩
    · omega
    · rw [getUsableSize] at hsize
      omega
  · cases hs'

theorem Open.fits_nil (h : Open s []) (hd : Drawable s₀ cmd)
    (hstreams : ∀ i, getFormatStride (cmd.formats i) * cmd.vertexCount ≤
      ((s.vb i).getUsableSize : Int))
    (hindices : cmd.indexMode ≠ .none → 2 * getIndexCount cmd.indexMode cmd.vertexCount ≤
      (s.indexBuffer.getUsableSize : Int)) : Fits s cmd := by
  have hvertices : s.vertexCount = 0 := h.vertexCount
  have hcount : s.indexCount = 0 := h.indexCount
  refine ⟨?_, fun hmode => ?_, fun i => ?_, fun hmode => ?_⟩
  · have := hd.int
    omega
  · have := (hd.indexed hmode).1
    omega
  · rw [hvertices, Int.zero_add]
    exact hstreams i
  · rw [hcount, Int.zero_add]
    exact hindices hmode

theorem Open.fits [DecidableEq Texture] (h : Open s g) (hd : Drawable s cmd)
    (hflush : shouldFlush cmd s = false)
    (hresize : shouldResize cmd s = false) :
    cmd.modes = s.modes ∧ Fits s cmd := by
  simp only [shouldFlush, shouldResize, Bool.or_eq_false_iff,
    Bool.and_eq_false_iff, decide_eq_false_iff_not, not_exists, not_and, not_not, not_lt, gt_iff_lt]
    at hflush hresize
  obtain ⟨⟨⟨hmodes, hvertices⟩, -⟩, -⟩ := hflush
  obtain ⟨hstreams, hindices⟩ := hresize
  have htotal := total_lt h hd fun i hi => (hstreams i hi).trans_lt (h.sound i).usable_lt
  have hnonneg := h.nonneg
  have hpos := hd.pos
  refine ⟨hmodes, htotal, fun hmode => ?_, fun i => ?_, fun hmode => ?_⟩
  · rw [wrapInt_eq (by omega) htotal] at hvertices
    rcases hvertices with hvertices | hvertices
    · omega
    · exact (hmode hvertices).elim
  · by_cases hi : cmd.formats i = .none
    · rw [hi, getFormatStride, Nat.cast_zero, Int.zero_mul]
      exact Int.natCast_nonneg _
    · rw [← dataSize_eq h hd htotal i]
      exact Int.ofNat_le.mpr (hstreams i hi)
  · rw [← indexDataSize_eq h hd]
    exact Int.ofNat_le.mpr (hindices hmode)

/-- After a flush there is room, if no buffer has to grow. -/
theorem Open.fits_flushed (h : Open s g) (hd : Drawable s cmd)
    (hresize : shouldResize cmd s = false)
    (hflushed : Open { s.flushBatchedDraws with modes := cmd.modes } []) :
    Fits { s.flushBatchedDraws with modes := cmd.modes } cmd := by
  simp only [shouldResize, Bool.or_eq_false_iff, decide_eq_false_iff_not,
    not_exists, not_and, not_lt, gt_iff_lt] at hresize
  obtain ⟨hstreams, hindices⟩ := hresize
  have htotal := total_lt h hd fun i hi => (hstreams i hi).trans_lt (h.sound i).usable_lt
  refine hflushed.fits_nil hd (fun i => ?_) fun hmode => ?_
  · by_cases hi : cmd.formats i = .none
    · rw [hi, getFormatStride, Nat.cast_zero, Int.zero_mul]
      exact Int.natCast_nonneg _
    · exact stream_room h hd htotal (hstreams i hi)
  · have hdata := indexDataSize_eq h hd
    have hroom := hindices hmode
    have := (flush_indexBuffer h).2
    dsimp only
    omega

theorem Open.fits_resized (h : Open s g) (hd : Drawable s cmd)
    (hflushed : Open { s.flushBatchedDraws with modes := cmd.modes } [])
    (hs' : BatchedDrawState.resize room (BatchedDrawState.bufferSize cmd s)
      (BatchedDrawState.indexBufferSize cmd s) { s.flushBatchedDraws with modes := cmd.modes } =
        some s') :
    Fits s' cmd := by
  obtain ⟨hopen, -, -, hstreams, hindices, hlt⟩ := hflushed.resize hs'
  have hsize : ∀ i, cmd.formats i ≠ .none →
      BatchedDrawState.dataSize cmd s i > (s.vb i).getUsableSize →
      BatchedDrawState.dataSize cmd s i ≤ BatchedDrawState.bufferSize cmd s i := fun i hi hdata => by
    rw [BatchedDrawState.bufferSize, if_pos ⟨hi, hdata⟩]
    exact le_max_left ..
  have htotal := total_lt h hd fun i hi => by
    by_cases hdata : BatchedDrawState.dataSize cmd s i > (s.vb i).getUsableSize
    · exact (hsize i hi hdata).trans_lt (hlt i)
    · exact (not_lt.mp hdata).trans_lt (h.sound i).usable_lt
  refine hopen.fits_nil hd (fun i => ?_) fun hmode => ?_
  · by_cases hi : cmd.formats i = .none
    · rw [hi, getFormatStride, Nat.cast_zero, Int.zero_mul]
      exact Int.natCast_nonneg _
    by_cases hdata : BatchedDrawState.dataSize cmd s i > (s.vb i).getUsableSize
    · have heq := dataSize_eq h hd htotal i
      have hvertices : 0 ≤ (getFormatStride (cmd.formats i) : Int) * s.vertexCount :=
        Int.mul_nonneg (Int.natCast_nonneg _) h.nonneg
      have hbuffer : BatchedDrawState.bufferSize cmd s i =
          max (BatchedDrawState.dataSize cmd s i) ((s.vb i).size * 2) := if_pos ⟨hi, hdata⟩
      have hsame := (flush_vb h i).1
      rw [Int.mul_add] at heq
      rcases hstreams i with ⟨-, hgrown⟩ | ⟨-, hgrown⟩
      · dsimp only at hgrown
        omega
      · omega
    · have hbuffer : BatchedDrawState.bufferSize cmd s i = 0 := if_neg fun hin => hdata hin.2
      rcases hstreams i with ⟨hvb, -⟩ | ⟨hgrown, -⟩
      · rw [hvb]
        exact stream_room h hd htotal (not_lt.mp hdata)
      · omega
  · have heq := indexDataSize_eq h hd
    have hcount := h.indexCount_bounds
    obtain ⟨hsame, hused⟩ := flush_indexBuffer h
    by_cases hdata : indexDataSize cmd s > s.indexBuffer.getUsableSize
    · have hbuffer : BatchedDrawState.indexBufferSize cmd s =
          max (indexDataSize cmd s) (s.indexBuffer.size * 2) :=
        if_pos ⟨hmode, hdata⟩
      rcases hindices with ⟨-, hgrown⟩ | ⟨-, hgrown⟩
      · dsimp only at hgrown
        omega
      · omega
    · have hbuffer : BatchedDrawState.indexBufferSize cmd s = 0 := if_neg fun hin => hdata hin.2
      rcases hindices with ⟨hvb, -⟩ | ⟨hgrown, -⟩
      · rw [hvb]
        dsimp only
        omega
      · omega

end Room

/-! ## Runs -/

/-- What was requested is drawn, up to the requests `g` of the batch. -/
structure Transparent (s : BatchedDrawState Texture) (requests g : List (Met Texture)) :
    Prop where
  opened : Open s g
  drawn : ∃ groups : List (List (Met Texture)), requests = groups.flatten ++ g ∧
    List.Forall₂ Draws groups s.draws

variable {requests : List (Met Texture)}

theorem Transparent.flush (h : Transparent s requests g) :
    Transparent s.flushBatchedDraws requests [] := by
  obtain ⟨groups, hrequests, hdraws⟩ := h.drawn
  by_cases hg : g = []
  · subst hg
    rwa [h.opened.flush_nil]
  · obtain ⟨hopen, hissued⟩ := h.opened.flush hg
    refine ⟨hopen, groups ++ [g], ?_, ?_⟩
    · rw [hrequests, flatten_append, flatten_singleton, append_nil]
    · rw [hissued]
      exact rel_append hdraws (.cons (h.opened.batchedDraw hg) .nil)

theorem Transparent.setModes (h : Transparent s requests []) (modes : Modes Texture) :
    Transparent { s with modes } requests [] :=
  ⟨.nil h.opened.sound h.opened.indexSound h.opened.vertexCount h.opened.indexCount
    (h.opened.idle rfl).1 (h.opened.idle rfl).2, h.drawn⟩

theorem Transparent.append (h : Transparent s requests g) (hmodes : r.cmd.modes = s.modes)
    (hd : Drawable s r.cmd) (hfits : Fits s r.cmd) :
    Transparent (appended r s) (requests ++ [met r s]) (g ++ [met r s]) := by
  obtain ⟨groups, hrequests, hdraws⟩ := h.drawn
  refine ⟨h.opened.append hmodes hd hfits, groups, ?_, ?_⟩
  · rw [hrequests, append_assoc]
  · rwa [(appended_modes r s).2]

theorem Drawable.congr {s' : BatchedDrawState Texture} {cmd : BatchedDrawCommand Texture}
    (hd : Drawable s cmd) (h : Open s' []) : Drawable s' cmd where
  pos := hd.pos
  int := hd.int
  drawn := hd.drawn
  indexed := hd.indexed
  room i _ hroom := by
    have hvertices : s'.vertexCount = 0 := h.vertexCount
    rw [hvertices, Int.zero_add] at hroom
    rwa [hvertices, Int.mul_zero, Int.zero_add]

theorem start_open (advances : Bool) (bytes : Nat → BitVec 8) (indices : Nat → Index) :
    Open (.start advances bytes indices : BatchedDrawState Texture) [] := by
  refine .nil (fun i => ⟨Nat.zero_le _, dvd_zero _, ?_⟩) ⟨Nat.zero_le _, dvd_zero _, ?_⟩ rfl rfl
    (fun _ => rfl) rfl
  · show (if i = 0 then 1024 * 1024 else 256 * 1024) < 2 ^ 63
    split <;> norm_num
  · show 2 * 65535 < 2 ^ 63
    norm_num

/-- What was requested has been drawn, in its order and each request in a draw of
its own modes; except the requests of the last batch, which the next flush
draws. -/
def DrawnInOrder (b : Batching Texture) : Prop :=
  ∃ groups pending : List (List (Met Texture)), b.requests = groups.flatten ++ pending.flatten ∧
    List.Forall₂ Draws groups b.state.draws ∧ ∃ draws,
      b.state.flushBatchedDraws.draws = b.state.draws ++ draws ∧ List.Forall₂ Draws pending draws

theorem OwnIndices.written :
    ∀ {g : List (Met Texture)} {base : Int}, OwnIndices base g → ∀ r ∈ g,
      (r.indices.length : Int) = getIndexCount r.cmd.indexMode r.cmd.vertexCount
  | _ :: _, _, ⟨hlength, _, hrest⟩, r, hr => by
    rcases mem_cons.mp hr with rfl | hr
    · exact hlength
    · exact hrest.written r hr

theorem Draws.written {groups : List (List (Met Texture))} {draws : List (GpuDraw Texture)}
    (h : List.Forall₂ Draws groups draws) : ∀ r ∈ groups.flatten,
      (r.indices.length : Int) = getIndexCount r.cmd.indexMode r.cmd.vertexCount := by
  induction h with
  | nil => exact fun r hr => (not_mem_nil hr).elim
  | cons hd _ ih =>
    intro r hr
    exact (mem_append.mp hr).elim (hd.own.written r) (ih r)

theorem DrawnInOrder.written {b : Batching Texture} (h : DrawnInOrder b) :
    ∀ r ∈ b.requests,
      (r.indices.length : Int) = getIndexCount r.cmd.indexMode r.cmd.vertexCount := by
  obtain ⟨groups, pending, hrequests, hgroups, draws, -, hpending⟩ := h
  rw [hrequests]
  exact fun r hr => (mem_append.mp hr).elim (Draws.written hgroups r) (Draws.written hpending r)

variable [DecidableEq Texture]

/-- A request of which nothing comes: `validateDrawState` throws. -/
def Refused (s : BatchedDrawState Texture) (cmd : BatchedDrawCommand Texture) (valid : Bool) :
    Prop :=
  (BatchedDrawState.flushFor cmd s).vertexCount = 0 ∧ !valid

/-- **One request**: refused or met, what was requested is drawn. -/
theorem Transparent.request (h : Transparent s requests g) {valid room : Bool}
    (hd : Refused s r.cmd valid ∨ Drawable s r.cmd) {b : Batching Texture}
    (hb : Batching.step ⟨s, requests⟩ (.request r valid room) = some b) :
    ∃ g', Transparent b.state b.requests g' := by
  have hflushed := h.flush.setModes r.cmd.modes
  rw [Batching.step, requestBatchedDraw] at hb
  cases hflush : shouldFlush r.cmd s || shouldResize r.cmd s with
  | false =>
    have hfor : flushFor r.cmd s = s := by
      rw [flushFor, hflush]
      rfl
    rw [hfor] at hb
    by_cases hrefused : s.vertexCount = 0 ∧ !valid
    · rw [if_pos hrefused] at hb
      cases hb
      exact ⟨g, h⟩
    · have hd : Drawable s r.cmd := hd.resolve_left fun hin => hrefused (hfor ▸ hin)
      obtain ⟨hflush, hresize⟩ := Bool.or_eq_false_iff.mp hflush
      obtain ⟨hmodes, hfits⟩ := h.opened.fits hd hflush hresize
      rw [if_neg hrefused, hresize] at hb
      cases hb
      exact ⟨_, h.append hmodes hd hfits⟩
  | true =>
    have hfor : flushFor r.cmd s =
        { s.flushBatchedDraws with modes := r.cmd.modes } := by
      rw [flushFor, hflush]
      rfl
    rw [Refused] at hd
    generalize flushFor r.cmd s = f at hfor hb hd
    subst hfor
    by_cases hrefused : s.flushBatchedDraws.vertexCount = 0 ∧ !valid
    · rw [if_pos hrefused] at hb
      cases hb
      exact ⟨[], hflushed⟩
    · have hd : Drawable s r.cmd := hd.resolve_left hrefused
      rw [if_neg hrefused] at hb
      cases hresize : shouldResize r.cmd s with
      | false =>
        rw [hresize] at hb
        cases hb
        exact ⟨_, hflushed.append rfl (hd.congr hflushed.opened)
          (h.opened.fits_flushed hd hresize hflushed.opened)⟩
      | true =>
        rw [hresize, if_pos rfl] at hb
        cases hgrown : BatchedDrawState.resize room (BatchedDrawState.bufferSize r.cmd s)
            (BatchedDrawState.indexBufferSize r.cmd s)
            { s.flushBatchedDraws with modes := r.cmd.modes } with
        | none =>
          rw [hgrown] at hb
          cases hb
        | some grown =>
          rw [hgrown] at hb
          cases hb
          obtain ⟨hopen, hmodes, hdraws, -⟩ := hflushed.opened.resize hgrown
          have hgrown' : Transparent grown requests [] := ⟨hopen, hdraws ▸ hflushed.drawn⟩
          exact ⟨_, hgrown'.append hmodes.symm (hd.congr hopen)
            (h.opened.fits_resized hd hflushed.opened hgrown)⟩

/-- A step that the claim is made for. -/
def Suitable (b : Batching Texture) : BatchOp Texture → Prop
  | .request r valid _ => Refused b.state r.cmd valid ∨ Drawable b.state r.cmd
  | .flush => True

/-- **Batched drawing is transparent** in every run of requests and flushes in
which the requests are drawable. -/
theorem batching_transparent {b : Batching Texture}
    (h : (Batching.batching.restrict Suitable).Reachable b) : DrawnInOrder b := by
  have hrun : ∃ g, Transparent b.state b.requests g := by
    refine System.Reachable.invariant_restrict
      (I := fun b : Batching Texture => ∃ g, Transparent b.state b.requests g) ?_ ?_ h
    · rintro _ ⟨advances, bytes, indices, rfl⟩
      exact ⟨[], start_open advances bytes indices, [], rfl, .nil⟩
    · rintro b e b' ⟨g, hg⟩ hsuitable hstep
      cases e with
      | request r valid room => exact hg.request hsuitable hstep
      | flush =>
        cases hstep
        exact ⟨[], hg.flush⟩
  obtain ⟨g, hopen, groups, hrequests, hdraws⟩ := hrun
  by_cases hg : g = []
  · subst hg
    refine ⟨groups, [], hrequests, hdraws, [], ?_, .nil⟩
    rw [hopen.flush_nil, append_nil]
  · refine ⟨groups, [g], ?_, hdraws, _, (hopen.flush hg).2, .cons (hopen.batchedDraw hg) .nil⟩
    rw [hrequests, flatten_singleton]

end Batches

theorem replicate_length {β : Type} (stride n : Nat) (x : β) :
    ((replicate (stride * n) x).length : Int) = stride * n := by
  rw [length_replicate, Nat.cast_mul]

/-- Glyphs of a font, in quads, with `n` vertices. -/
def glyphs (n : Nat) : Request Unit :=
  let formats (i : Fin 2) : CommonFormat := if i.val = 0 then .XYf_STus_RGBAub else .none
  ⟨⟨.triangles, formats, .quads, n, none, .default⟩,
    fun i => List.replicate (getFormatStride (formats i) * n) 0,
    fun i => replicate_length (getFormatStride (formats i)) n 0⟩

theorem batching_transparent_glyphs : ∃ b,
    System.run Batching.step ⟨.start true (fun _ => 0) (fun _ => 0), []⟩
      [.request (glyphs 8) true true, .request (glyphs 4) true true] = some b ∧ DrawnInOrder b := by
  refine ⟨_, rfl, batching_transparent (.step (e := .request (glyphs 4) true true) (.step
    (e := .request (glyphs 8) true true) (.init ⟨true, fun _ => 0, fun _ => 0, rfl⟩)
    ⟨.inr ⟨by decide, by decide, ⟨0, by decide⟩, fun _ => ⟨by decide, ?_⟩, ?_⟩, rfl⟩)
    ⟨.inr ⟨by decide, by decide, ⟨0, by decide⟩, fun _ => ⟨by decide, ?_⟩, ?_⟩, rfl⟩)⟩
  · exact ⟨2, rfl⟩
  · decide
  · exact ⟨1, rfl⟩
  · decide

/-- A text of 16385 glyphs has 65540 vertices: `fillIndices` counts 4 of them. -/
theorem glyphs_not_transparent : ∃ b : Batching Unit,
    Batching.batching.Reachable b ∧ ¬ DrawnInOrder b := by
  refine ⟨_, .step (e := .request (glyphs 65540) true true)
    (.init ⟨true, fun _ => 0, fun _ => 0, rfl⟩) rfl, ?_⟩
  intro h
  have hwritten := h.written _ mem_cons_self
  revert hwritten
  decide

end Lhatove.Graphics
