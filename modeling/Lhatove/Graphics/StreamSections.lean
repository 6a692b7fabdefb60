import Lhatove.Graphics.BatchedRuns
import Lhatove.Lib.Sections

/-!
# The memory that batched draws are given

What the stream buffers have mapped, and the sections of it that
`requestBatchedDraw` hands out to its callers until the next flush.

- `Handing`: the state of the batch, with what is mapped and handed out;
- `Handing.handing`: requests, flushes and frames, in any order;
- `Laid`: the invariant;
- `sections_inside`: what is handed out is mapped, and handed out once.
-/

namespace Lhatove.Graphics

open BatchedDrawState StreamBuffer

/-- `StreamBuffer::nextFrame` -/
def StreamBuffer.nextFrame {α : Type} (b : StreamBuffer α) : StreamBuffer α := { b with offset := 0 }

/-- What a stream buffer has mapped, and what of it is handed out. -/
structure Area where
  mapped : Option Section
  handed : List Section

namespace Area

/-- Nothing. -/
def released : Area := ⟨none, []⟩

/-- A section that is handed out, from a buffer that is mapped for it if it has not
been before. -/
def hand {α : Type} (b : StreamBuffer α) (map : Option MapInfo) (s : Section) (area : Area) : Area where
  mapped := if map = none then some ⟨b.map.data, b.map.size⟩ else area.mapped
  handed := area.handed ++ [s]

/-- The buffer is replaced by one of another size: that has nothing mapped. -/
def renew (isNew : Bool) (area : Area) : Area := if isNew then { area with mapped := none } else area

end Area

variable {Texture : Type}

/-- The batch, with the areas of its buffers. -/
structure Handing (Texture : Type) where
  state : BatchedDrawState Texture
  streams : Fin 2 → Area
  indices : Area

inductive HandOp (Texture : Type)
  | request (cmd : BatchedDrawCommand Texture) (valid room : Bool)
  | flush
  | nextFrame

/-- The modes of the next batch. -/
def BatchedDrawState.setModes (modes : Modes Texture) (s : BatchedDrawState Texture) :
    BatchedDrawState Texture := { s with modes }

namespace Handing

def setState (state : BatchedDrawState Texture) (h : Handing Texture) : Handing Texture :=
  { h with state }

/-- A flush unmaps the buffers that it draws from. -/
def flush (h : Handing Texture) : Handing Texture :=
  if h.state.vertexCount = 0 ∧ h.state.indexCount = 0 then h
  else
    { state := h.state.flushBatchedDraws
      streams := fun i => if h.state.modes.formats i = .none then h.streams i else .released
      indices :=
        if (∃ i, h.state.modes.formats i ≠ .none) ∧ h.state.modes.indexedDraw then .released
        else h.indices }

/-- `Graphics::present`, of the buffers. -/
def nextFrame (h : Handing Texture) : Handing Texture :=
  { h with
    state :=
      { h.state with
        vb := fun i => (h.state.vb i).nextFrame
        indexBuffer := h.state.indexBuffer.nextFrame } }

variable [DecidableEq Texture]

/-- The flush before a request, if there is to be one. -/
def flushFor (cmd : BatchedDrawCommand Texture) (h : Handing Texture) : Handing Texture :=
  if BatchedDrawState.shouldFlush cmd h.state || BatchedDrawState.shouldResize cmd h.state then
    h.flush.setState (BatchedDrawState.flushFor cmd h.state)
  else h

/-- The areas when the request in `cmd` is met: `before` had the buffers before it, `t` is
the state behind it, and `stream` is what the caller gets. -/
def met (cmd : BatchedDrawCommand Texture) (before : BatchedDrawState Texture)
    (stream : Fin 2 → Option Nat) (t : BatchedDrawState Texture) (h : Handing Texture) :
    Handing Texture where
  state := t
  streams := fun i =>
    let area := (h.streams i).renew (BatchedDrawState.shouldResize cmd before &&
      decide ((before.vb i).size < BatchedDrawState.bufferSize cmd before i))
    match stream i with
    | none => area
    | some address =>
      area.hand (t.vb i) (h.state.vbMap i)
        ⟨address, (getFormatStride (cmd.formats i) * cmd.vertexCount).toNat⟩
  indices :=
    let area := h.indices.renew (BatchedDrawState.shouldResize cmd before &&
      decide (before.indexBuffer.size < BatchedDrawState.indexBufferSize cmd before))
    if cmd.indexMode = .none then area
    else
      area.hand t.indexBuffer h.state.indexBufferMap
        ⟨(h.state.indexBufferMap.getD t.indexBuffer.map).data,
          (2 * getIndexCount cmd.indexMode cmd.vertexCount).toNat⟩

def step (h : Handing Texture) : HandOp Texture → Option (Handing Texture)
  | .request cmd valid room =>
    match h.state.requestBatchedDraw cmd valid room with
    | none => none
    | some (.refused t) => some ((h.flushFor cmd).setState t)
    | some (.requested stream _ t) => some ((h.flushFor cmd).met cmd h.state stream t)
  | .flush => some h.flush
  | .nextFrame => some h.nextFrame

def start (advances : Bool) (bytes : Nat → BitVec 8) (indices : Nat → Index) : Handing Texture where
  state := .start advances bytes indices
  streams _ := .released
  indices := .released

/-- Requests, flushes and frames, in any order. -/
def handing : System (Handing Texture) (HandOp Texture) :=
  System.ofStep (fun h => ∃ advances bytes indices, h = start advances bytes indices) step

end Handing

/-! ## One buffer -/

section Buffer

variable {α : Type} {b : StreamBuffer α} {map : Option MapInfo} {area : Area} {used : Nat}

/-- `used` bytes of what the buffer has mapped are handed out, from its front on. -/
structure Lent (b : StreamBuffer α) (map : Option MapInfo) (area : Area) (used : Nat) : Prop where
  offset_le : b.offset ≤ b.size
  size_lt : b.size < 2 ^ 63
  lent : (map = none ∧ area = .released ∧ used = 0) ∨
    ∃ m : Section, area.mapped = some m ∧ map = some ⟨m.start + used, m.size⟩ ∧ used ≤ m.size ∧
      m.size ≤ b.getUsableSize ∧ m.start + m.size ≤ b.size ∧
      Fills m.start area.handed (m.start + used)

theorem Lent.released (hoffset : b.offset ≤ b.size) (hsize : b.size < 2 ^ 63) :
    Lent b none .released 0 :=
  ⟨hoffset, hsize, .inl ⟨rfl, rfl, rfl⟩⟩

/-- **A section is handed out**: there is room for it in what is mapped, or in the buffer if
nothing is. -/
theorem Lent.hand (h : Lent b map area used) {size : Nat}
    (hsome : ∀ m, map = some m → used + size ≤ m.size)
    (hnone : map = none → size ≤ b.getUsableSize) :
    Lent b (some ⟨sizeT ((map.getD b.map).data + size), (map.getD b.map).size⟩)
      (area.hand b map ⟨(map.getD b.map).data, size⟩) (used + size) := by
  have hoffset := h.offset_le
  have hsize := h.size_lt
  refine ⟨hoffset, hsize, .inr ?_⟩
  rcases h.lent with ⟨rfl, rfl, rfl⟩ | ⟨m, hmapped, rfl, hused, husable, hinside, hfills⟩
  · have hfits := hnone rfl
    rw [getUsableSize] at hfits
    refine ⟨⟨b.offset, b.size - b.offset⟩, rfl, ?_, by rwa [Nat.zero_add], le_rfl, ?_, ?_⟩
    · change some (MapInfo.mk (sizeT ((b.offset : Int) + size)) (b.size - b.offset)) = _
      rw [sizeT_eq (by omega) (by omega), Nat.zero_add]
      rfl
    · change b.offset + (b.size - b.offset) ≤ b.size
      omega
    · rw [Nat.zero_add]
      exact .snoc size .nil
  · have hfits := hsome _ rfl
    refine ⟨m, hmapped, ?_, hfits, husable, hinside, ?_⟩
    · change some (MapInfo.mk (sizeT (((m.start + used : Nat) : Int) + size)) m.size) = _
      dsimp only at hfits
      rw [sizeT_eq (by omega) (by omega), ← Nat.add_assoc]
      rfl
    · rw [← Nat.add_assoc]
      exact .snoc size hfills

theorem Lent.nextFrame (h : Lent b map area used) : Lent b.nextFrame map area used := by
  refine ⟨Nat.zero_le _, h.size_lt, ?_⟩
  rcases h.lent with hreleased | ⟨m, hmapped, hmap, hused, husable, hinside, hfills⟩
  · exact .inl hreleased
  · have hsize : b.nextFrame.getUsableSize = b.size := rfl
    exact .inr ⟨m, hmapped, hmap, hused, by omega, hinside, hfills⟩

theorem Lent.used_le (h : Lent b map area used) : used ≤ b.getUsableSize := by
  rcases h.lent with ⟨-, -, rfl⟩ | ⟨m, -, -, hused, husable, -, -⟩
  · exact Nat.zero_le _
  · exact hused.trans husable

theorem Lent.used_eq_zero (h : Lent b none area used) : used = 0 ∧ area = .released := by
  rcases h.lent with ⟨-, harea, hused⟩ | ⟨m, -, hmap, -⟩
  · exact ⟨hused, harea⟩
  · cases hmap

theorem Lent.map_le (h : Lent b map area used) : ∀ m, map = some m → m.size ≤ b.getUsableSize := by
  intro m hm
  rcases h.lent with ⟨hmap, -⟩ | ⟨s, -, hmap, -, husable, -⟩
  · rw [hmap] at hm
    cases hm
  · rw [hmap] at hm
    cases hm
    exact husable

theorem Lent.markUsed (h : Lent b map area used) :
    (b.markUsed used).offset ≤ (b.markUsed used).size ∧ (b.markUsed used).size = b.size := by
  have hoffset := h.offset_le
  have hused := h.used_le
  rw [getUsableSize] at hused
  rw [StreamBuffer.markUsed]
  split
  · exact ⟨by dsimp only; omega, rfl⟩
  · exact ⟨hoffset, rfl⟩

/-- What is handed out of a buffer is mapped, and handed out once. -/
structure Area.Proper (size : Nat) (area : Area) : Prop where
  mapped : ∀ m ∈ area.mapped, m.start + m.size ≤ size
  inside : ∀ s ∈ area.handed, ∃ m ∈ area.mapped, s.Inside m
  apart : area.handed.Pairwise Section.Apart

theorem Lent.proper (h : Lent b map area used) : area.Proper b.size := by
  rcases h.lent with ⟨-, rfl, -⟩ | ⟨m, hmapped, -, hused, -, hinside, hfills⟩
  · constructor
    · intro m hm
      cases hm
    · intro s hs
      cases hs
    · exact .nil
  · constructor
    · intro m' hm'
      rw [hmapped] at hm'
      cases hm'
      exact hinside
    · intro s hs
      refine ⟨m, hmapped, ?_⟩
      have := hfills.inside s hs
      rw [Section.Inside]
      omega
    · exact hfills.pairwise

end Buffer

/-! ## The invariant -/

variable {Texture : Type}

/-- The bytes of stream `i` that the batch has. -/
def streamBytes (s : BatchedDrawState Texture) (i : Fin 2) : Nat :=
  (getFormatStride (s.modes.formats i) * s.vertexCount).toNat

/-- **The batch and its areas.** -/
structure Laid (h : Handing Texture) : Prop where
  vertexCount : 0 ≤ h.state.vertexCount ∧ h.state.vertexCount < 2 ^ 31
  indexCount : 0 ≤ h.state.indexCount ∧ h.state.indexCount < 2 ^ 31
  empty : h.state.vertexCount = 0 → h.state.indexCount = 0
  notIndexed : h.state.modes.indexedDraw = false → h.state.indexCount = 0
  drawn : 0 < h.state.vertexCount → ∃ i, h.state.modes.formats i ≠ .none
  streams : ∀ i, Lent (h.state.vb i) (h.state.vbMap i) (h.streams i) (streamBytes h.state i)
  unmapped : ∀ i, h.state.vertexCount = 0 ∨ h.state.modes.formats i = .none → h.state.vbMap i = none
  indices : Lent h.state.indexBuffer h.state.indexBufferMap h.indices (2 * h.state.indexCount).toNat

section Flush

variable {h : Handing Texture}

theorem Laid.usedSize_eq (hl : Laid h) (i : Fin 2) : h.state.usedSize i = streamBytes h.state i := by
  have hcount := hl.vertexCount
  have hstride := stride_le (h.state.modes.formats i)
  rw [BatchedDrawState.usedSize, streamBytes,
    sizeT_eq (Int.mul_nonneg (Int.natCast_nonneg _) hcount.1) (by nlinarith)]

theorem Laid.usedIndexSize_eq (hl : Laid h) :
    h.state.usedIndexSize = (2 * h.state.indexCount).toNat := by
  have hcount := hl.indexCount
  rw [usedIndexSize, sizeT_eq (by omega) (by omega)]

/-- What a flush leaves. -/
structure Flushed (h h' : Handing Texture) : Prop where
  vertexCount : h'.state.vertexCount = 0
  indexCount : h'.state.indexCount = 0
  streams : ∀ i, Lent (h'.state.vb i) none (h'.streams i) 0
  unmapped : ∀ i, h'.state.vbMap i = none
  size : ∀ i, (h'.state.vb i).size = (h.state.vb i).size
  usable : ∀ i, (h.state.vb i).getUsableSize ≤ (h'.state.vb i).getUsableSize +
    if (h.state.vb i).advances then streamBytes h.state i else 0
  indices : Lent h'.state.indexBuffer h'.state.indexBufferMap h'.indices 0
  indexSize : h'.state.indexBuffer.size = h.state.indexBuffer.size
  indexUsable : h.state.indexBuffer.getUsableSize ≤
    h'.state.indexBuffer.getUsableSize + (2 * h.state.indexCount).toNat
  stale : h'.state.indexBufferMap ≠ none → h'.state.indexBufferMap = h.state.indexBufferMap ∧
    (h.state.vertexCount = 0 ∨ h.state.modes.indexedDraw = false)

variable {s : BatchedDrawState Texture} {i : Fin 2}

theorem streamBytes_zero (h : s.vertexCount = 0) : streamBytes s i = 0 := by
  rw [streamBytes, h, Int.mul_zero]
  rfl

theorem streamBytes_none (h : s.modes.formats i = .none) : streamBytes s i = 0 := by
  rw [streamBytes, h, getFormatStride, Nat.cast_zero, Int.zero_mul]
  rfl

theorem Laid.flush (hl : Laid h) : Flushed h h.flush := by
  by_cases hempty : h.state.vertexCount = 0 ∧ h.state.indexCount = 0
  · have hmaps : ∀ i, h.state.vbMap i = none := fun i => hl.unmapped i (.inl hempty.1)
    have hindices := hl.indices
    rw [hempty.2] at hindices
    have hsame : h.flush = h := if_pos hempty
    rw [hsame]
    refine ⟨hempty.1, hempty.2, ?_, hmaps, fun _ => rfl, ?_, hindices, rfl, ?_, ?_⟩
    · intro i
      have hstream := hl.streams i
      rwa [hmaps i, streamBytes_zero hempty.1] at hstream
    · intro i
      exact Nat.le_add_right _ _
    · exact Nat.le_add_right _ _
    · exact fun _ => ⟨rfl, .inl hempty.1⟩
  · -- Something is drawn, in a stream.
    have hpos : 0 < h.state.vertexCount := by
      have hcount := hl.vertexCount
      have hnone := hl.empty
      omega
    obtain ⟨i₀, hi₀⟩ := hl.drawn hpos
    have hdrawn : ¬ ∀ i, h.state.modes.formats i = .none := fun hall => hi₀ (hall i₀)
    have hflush : h.flush = _ := if_neg hempty
    have hstate : h.state.flushBatchedDraws = _ := (if_neg hempty).trans (if_neg hdrawn)
    rw [hstate] at hflush
    rw [hflush]
    constructor
    · rfl
    · rfl
    · intro i
      have hstream := hl.streams i
      dsimp only
      by_cases hi : h.state.modes.formats i = .none
      · rw [if_pos hi, if_pos hi]
        rwa [hl.unmapped i (.inr hi), streamBytes_none hi] at hstream
      · rw [if_neg hi, if_neg hi, hl.usedSize_eq]
        obtain ⟨hoffset, hsize⟩ := hstream.markUsed
        exact .released hoffset (hsize ▸ hstream.size_lt)
    · intro i
      dsimp only
      by_cases hi : h.state.modes.formats i = .none
      · rw [if_pos hi]
        exact hl.unmapped i (.inr hi)
      · rw [if_neg hi]
    · intro i
      dsimp only
      split
      · rfl
      · rw [hl.usedSize_eq]
        exact (hl.streams i).markUsed.2
    · intro i
      dsimp only
      split
      · exact Nat.le_add_right _ _
      · rw [hl.usedSize_eq, usable_markUsed]
        omega
    · have hindices := hl.indices
      cases hindexed : h.state.modes.indexedDraw with
      | false =>
        have hzero := hl.notIndexed hindexed
        rw [hzero] at hindices
        simpa using hindices
      | true =>
        rw [if_pos rfl, if_pos rfl, if_pos ⟨⟨i₀, hi₀⟩, rfl⟩, hl.usedIndexSize_eq]
        obtain ⟨hoffset, hsize⟩ := hindices.markUsed
        exact .released hoffset (hsize ▸ hindices.size_lt)
    · dsimp only
      split
      · rw [hl.usedIndexSize_eq]
        exact hl.indices.markUsed.2
      · rfl
    · dsimp only
      split
      · rw [hl.usedIndexSize_eq, usable_markUsed]
        split <;> omega
      · exact Nat.le_add_right _ _
    · dsimp only
      intro hmapped
      cases hindexed : h.state.modes.indexedDraw with
      | false => exact ⟨rfl, .inr rfl⟩
      | true =>
        rw [hindexed] at hmapped
        exact absurd rfl hmapped

end Flush

/-! ## Requests -/

theorem getIndexCount_lt (mode : TriangleIndexMode) (n : Int) : getIndexCount mode n < 2 ^ 31 := by
  have hwrap : ∀ m, -2 ^ 31 ≤ wrapInt m ∧ wrapInt m < 2 ^ 31 := by
    intro m
    have hlt := @Int.bmod_lt m (2 ^ 32) (by decide)
    have hle := @Int.le_bmod m (2 ^ 32) (by decide)
    rw [wrapInt]
    omega
  cases mode with
  | none => exact Int.pow_pos (by decide)
  | strip | fan => exact (hwrap _).2
  | quads =>
    have h := hwrap (n * 6)
    rw [getIndexCount]
    rcases Int.le_total 0 (wrapInt (n * 6)) with hpos | hneg
    · rw [Int.tdiv_eq_ediv_of_nonneg hpos]
      omega
    · have hflip : (wrapInt (n * 6)).tdiv 4 = -(-wrapInt (n * 6) / 4) := by
        rw [← Int.tdiv_eq_ediv_of_nonneg (by omega), Int.neg_tdiv, Int.neg_neg]
      omega

/-- No vertices have no indices, if they do not have fewer than none. -/
theorem getIndexCount_zero {mode : TriangleIndexMode} (h : 0 ≤ getIndexCount mode 0) :
    getIndexCount mode 0 = 0 := by
  cases mode with
  | none | quads => rfl
  | strip | fan => exact absurd h (by decide)

variable {cmd : BatchedDrawCommand Texture}

/-- A request that there will be room for: of vertices of some format, that have a number
of indices; in the streams that advance, with room for the vertices behind those of the
batch in its own format; and with a mapped index buffer that is large enough when the flush
does not unmap it. -/
structure Fitting (s : BatchedDrawState Texture) (cmd : BatchedDrawCommand Texture) : Prop where
  count : 0 ≤ cmd.vertexCount ∧ cmd.vertexCount < 2 ^ 31
  formats : ∃ i, cmd.formats i ≠ .none
  indices : 0 ≤ getIndexCount cmd.indexMode cmd.vertexCount
  room : ∀ i, (s.vb i).advances = true →
    getFormatStride (cmd.formats i) * (s.vertexCount + cmd.vertexCount) ≤ (s.vb i).getUsableSize →
    getFormatStride (s.modes.formats i) * s.vertexCount +
      getFormatStride (cmd.formats i) * cmd.vertexCount ≤ (s.vb i).getUsableSize
  stale : cmd.indexMode ≠ .none → s.vertexCount = 0 ∨ s.modes.indexedDraw = false →
    ∀ m ∈ s.indexBufferMap, BatchedDrawState.indexDataSize cmd s ≤ m.size

/-- The bytes of a request in stream `i`. -/
def requestBytes (cmd : BatchedDrawCommand Texture) (i : Fin 2) : Nat :=
  (getFormatStride (cmd.formats i) * cmd.vertexCount).toNat

theorem newDataSize_eq_requestBytes (hcount : 0 ≤ cmd.vertexCount ∧ cmd.vertexCount < 2 ^ 31)
    (i : Fin 2) : newDataSize cmd i = requestBytes cmd i := by
  have hstride := stride_le (cmd.formats i)
  rw [newDataSize, requestBytes]
  split
  · next hi =>
    rw [hi, getFormatStride, Nat.cast_zero, Int.zero_mul]
    rfl
  · rw [sizeT_eq (Int.mul_nonneg (Int.natCast_nonneg _) hcount.1) (by nlinarith)]

theorem reqIndexSize_eq (h : 0 ≤ getIndexCount cmd.indexMode cmd.vertexCount) :
    reqIndexSize cmd =
      (2 * getIndexCount cmd.indexMode cmd.vertexCount).toNat := by
  have hlt := getIndexCount_lt cmd.indexMode cmd.vertexCount
  rw [reqIndexSize, sizeT_eq (by omega) (by omega)]

/-- A request behind the batch, without a flush. -/
def Handing.append (cmd : BatchedDrawCommand Texture) (h : Handing Texture) : Handing Texture where
  state := (BatchedDrawState.append cmd h.state).2
  streams := fun i =>
    if 0 < BatchedDrawState.newDataSize cmd i then
      (h.streams i).hand (h.state.vb i) (h.state.vbMap i)
        ⟨((h.state.vbMap i).getD (h.state.vb i).map).data, requestBytes cmd i⟩
    else h.streams i
  indices :=
    if cmd.indexMode = .none then h.indices
    else
      h.indices.hand h.state.indexBuffer h.state.indexBufferMap
        ⟨(h.state.indexBufferMap.getD h.state.indexBuffer.map).data,
          (2 * getIndexCount cmd.indexMode cmd.vertexCount).toNat⟩

/-- There is room for the request, in what is mapped or will be. -/
structure Roomy (s : BatchedDrawState Texture) (cmd : BatchedDrawCommand Texture) : Prop where
  total : s.vertexCount + cmd.vertexCount < 2 ^ 31
  indexTotal : s.indexCount + getIndexCount cmd.indexMode cmd.vertexCount < 2 ^ 31
  mapped : ∀ i, ∀ m, s.vbMap i = some m → streamBytes s i + requestBytes cmd i ≤ m.size
  unmapped : ∀ i, s.vbMap i = none → requestBytes cmd i ≤ (s.vb i).getUsableSize
  indexMapped : cmd.indexMode ≠ .none → ∀ m, s.indexBufferMap = some m →
    2 * (s.indexCount + getIndexCount cmd.indexMode cmd.vertexCount) ≤ m.size
  indexUnmapped : cmd.indexMode ≠ .none → s.indexBufferMap = none →
    2 * getIndexCount cmd.indexMode cmd.vertexCount ≤ s.indexBuffer.getUsableSize

/-- **One request**, where there is room for it. -/
theorem Laid.append {h : Handing Texture} (hl : Laid h) (hmodes : cmd.modes = h.state.modes)
    (hcount : 0 ≤ cmd.vertexCount ∧ cmd.vertexCount < 2 ^ 31)
    (hformats : ∃ i, cmd.formats i ≠ .none)
    (hindices : 0 ≤ getIndexCount cmd.indexMode cmd.vertexCount) (hroom : Roomy h.state cmd) :
    Laid (h.append cmd) := by
  have hvertices := hl.vertexCount
  have hindexCount := hl.indexCount
  have htotal := hroom.total
  have hindexTotal := hroom.indexTotal
  have hmodes' : (h.append cmd).state.modes = h.state.modes := by
    change (BatchedDrawState.append cmd h.state).2.modes = _
    rw [BatchedDrawState.append]
    dsimp only
    split <;> rfl
  have hn : (h.append cmd).state.vertexCount = h.state.vertexCount + cmd.vertexCount :=
    wrapInt_eq (by omega) htotal
  have hic : (h.append cmd).state.indexCount =
      h.state.indexCount + getIndexCount cmd.indexMode cmd.vertexCount :=
    wrapInt_eq (by omega) hindexTotal
  have hvb : (h.append cmd).state.vb = h.state.vb := append_vb cmd h.state
  have hmap : ∀ i, (h.append cmd).state.vbMap i =
      if 0 < newDataSize cmd i then
        some ⟨sizeT (((h.state.vbMap i).getD (h.state.vb i).map).data +
          newDataSize cmd i), ((h.state.vbMap i).getD (h.state.vb i).map).size⟩
      else h.state.vbMap i := fun _ => rfl
  have hformatsEq : cmd.formats = h.state.modes.formats := congrArg Modes.formats hmodes
  have hindexedEq : h.state.modes.indexedDraw = decide (cmd.indexMode ≠ .none) := by
    rw [← hmodes]
    rfl
  have hbytes : ∀ i, streamBytes (h.append cmd).state i =
      streamBytes h.state i + requestBytes cmd i := by
    intro i
    have hold : 0 ≤ (getFormatStride (h.state.modes.formats i) : Int) * h.state.vertexCount :=
      Int.mul_nonneg (Int.natCast_nonneg _) hvertices.1
    have hnew : 0 ≤ (getFormatStride (h.state.modes.formats i) : Int) * cmd.vertexCount :=
      Int.mul_nonneg (Int.natCast_nonneg _) hcount.1
    rw [streamBytes, hmodes', hn, Int.mul_add, streamBytes, requestBytes, hformatsEq,
      Int.toNat_add hold hnew]
  constructor
  · omega
  · omega
  · rw [hn, hic]
    intro hzero
    have hv : cmd.vertexCount = 0 := by omega
    rw [hv] at hindices ⊢
    rw [getIndexCount_zero hindices, hl.empty (by omega)]
    rfl
  · rw [hmodes', hic]
    intro hnot
    rw [hl.notIndexed hnot]
    rw [hindexedEq, decide_eq_false_iff_not, not_not] at hnot
    rw [hnot]
    rfl
  · rw [hmodes', ← hformatsEq]
    exact fun _ => hformats
  · intro i
    have hstream := hl.streams i
    rw [hvb, hmap, hbytes, newDataSize_eq_requestBytes hcount]
    change Lent _ _ (if 0 < newDataSize cmd i then _ else h.streams i) _
    rw [newDataSize_eq_requestBytes hcount]
    by_cases hsome : 0 < requestBytes cmd i
    · rw [if_pos hsome, if_pos hsome]
      exact hstream.hand (hroom.mapped i) (hroom.unmapped i)
    · rw [if_neg hsome, if_neg hsome, Nat.eq_zero_of_not_pos hsome]
      exact hstream
  · intro i hnone
    rw [hn, hmodes'] at hnone
    have hzero : requestBytes cmd i = 0 := by
      rw [requestBytes, hformatsEq]
      rcases hnone with hnone | hnone
      · rw [show cmd.vertexCount = 0 by omega, Int.mul_zero]
        rfl
      · rw [hnone, getFormatStride, Nat.cast_zero, Int.zero_mul]
        rfl
    rw [hmap, newDataSize_eq_requestBytes hcount, hzero, if_neg (Nat.lt_irrefl 0)]
    exact hl.unmapped i (hnone.imp_left fun hzero => by omega)
  · have hstream := hl.indices
    by_cases hmode : cmd.indexMode = .none
    · have hreq : getIndexCount cmd.indexMode cmd.vertexCount = 0 := by
        rw [hmode]
        rfl
      rw [hic, hreq, Int.add_zero]
      change Lent (BatchedDrawState.append cmd h.state).2.indexBuffer
        (BatchedDrawState.append cmd h.state).2.indexBufferMap
        (if cmd.indexMode = .none then h.indices else _) _
      rw [if_pos hmode, BatchedDrawState.append]
      rw [if_pos hmode]
      exact hstream
    · have hhand := @Lent.hand _ _ _ _ _ hstream
        (2 * getIndexCount cmd.indexMode cmd.vertexCount).toNat
        (fun m hm => by have := hroom.indexMapped hmode m hm; omega)
        (fun hm => by have := hroom.indexUnmapped hmode hm; omega)
      rw [hic]
      change Lent (BatchedDrawState.append cmd h.state).2.indexBuffer
        (BatchedDrawState.append cmd h.state).2.indexBufferMap
        (if cmd.indexMode = .none then h.indices else _) _
      rw [if_neg hmode, BatchedDrawState.append]
      rw [if_neg hmode, reqIndexSize_eq hindices]
      rw [show (2 * (h.state.indexCount + getIndexCount cmd.indexMode cmd.vertexCount)).toNat =
        (2 * h.state.indexCount).toNat +
          (2 * getIndexCount cmd.indexMode cmd.vertexCount).toNat by omega]
      exact ⟨hhand.offset_le, hhand.size_lt, hhand.lent⟩

/-! ## Buffers that grow -/

variable {room : Bool} {size : Nat}

theorem grow_cases {α : Type} {b b' : StreamBuffer α}
    (h : BatchedDrawState.grow room size b = some b') :
    (b' = b ∧ size ≤ b.size) ∨
      (b.size < size ∧ size < 2 ^ 63 ∧ b'.offset = 0 ∧ b'.size = size) := by
  rw [BatchedDrawState.grow] at h
  split at h
  · next hsize =>
    rw [StreamBuffer.renew] at h
    split at h
    · next hroom =>
      cases h
      simp only [Bool.and_eq_true, decide_eq_true_eq] at hroom
      exact .inr ⟨hsize, hroom.2, rfl, rfl⟩
    · cases h
  · next hsize =>
    cases h
    exact .inl ⟨rfl, Nat.le_of_not_gt hsize⟩

theorem resize_cases {s s' : BatchedDrawState Texture} {sizes : Fin 2 → Nat} {indexSize : Nat}
    (h : resize room sizes indexSize s = some s') :
    (∀ i, BatchedDrawState.grow room (sizes i) (s.vb i) = some (s'.vb i)) ∧
      BatchedDrawState.grow room indexSize s.indexBuffer = some s'.indexBuffer ∧
      s' = { s with vb := s'.vb, indexBuffer := s'.indexBuffer } := by
  rw [resize] at h
  split at h
  · next vb₀ vb₁ indexBuffer h₀ h₁ h₂ =>
    cases h
    exact ⟨Fin.forall_fin_two.mpr ⟨h₀, h₁⟩, h₂, rfl⟩
  · cases h

theorem Lent.grow {α : Type} {b b' : StreamBuffer α} {area : Area} {used : Nat}
    (h : Lent b none area used) (hgrow : BatchedDrawState.grow room size b = some b') :
    Lent b' none area used := by
  obtain ⟨rfl, rfl⟩ := h.used_eq_zero
  rcases grow_cases hgrow with ⟨rfl, -⟩ | ⟨-, hlt, hoffset, hsize⟩
  · exact h
  · exact .released (by omega) (by omega)

theorem renew_released (isNew : Bool) : Area.released.renew isNew = .released := by
  cases isNew <;> rfl

/-! ## Steps -/

section Request

variable {h h' : Handing Texture}

theorem Laid.dataSize_eq (hl : Laid h) (hfit : Fitting h.state cmd)
    {i : Fin 2} (hi : cmd.formats i ≠ .none)
    (hlt : BatchedDrawState.dataSize cmd h.state i < 2 ^ 63) :
    h.state.vertexCount + cmd.vertexCount < 2 ^ 31 ∧
      (BatchedDrawState.dataSize cmd h.state i : Int) =
        getFormatStride (cmd.formats i) * (h.state.vertexCount + cmd.vertexCount) := by
  have htotal : h.state.vertexCount + cmd.vertexCount < 2 ^ 31 := by
    by_contra hle
    have hwrapped := dataSize_of_le hl.vertexCount.2 hfit.count.2 (by omega) hi
    omega
  exact ⟨htotal, dataSize_of_lt hl.vertexCount.1 hfit.count.1 htotal i⟩

theorem Laid.indexDataSize_eq (hl : Laid h) (hfit : Fitting h.state cmd)
    (hlt : indexDataSize cmd h.state < 2 ^ 63) :
    h.state.indexCount + getIndexCount cmd.indexMode cmd.vertexCount < 2 ^ 31 ∧
      (indexDataSize cmd h.state : Int) =
        2 * (h.state.indexCount + getIndexCount cmd.indexMode cmd.vertexCount) := by
  have hcount := hl.indexCount
  have hnew := hfit.indices
  have hnew' := getIndexCount_lt cmd.indexMode cmd.vertexCount
  have htotal : h.state.indexCount + getIndexCount cmd.indexMode cmd.vertexCount < 2 ^ 31 := by
    by_contra hle
    have hwrap : wrapInt (h.state.indexCount + getIndexCount cmd.indexMode cmd.vertexCount) =
        h.state.indexCount + getIndexCount cmd.indexMode cmd.vertexCount - 2 ^ 32 := by
      rw [wrapInt, ← Int.sub_bmod_right, Nat.cast_pow, Nat.cast_ofNat]
      exact wrapInt_eq (by omega) (by omega)
    rw [indexDataSize, hwrap, sizeT] at hlt
    omega
  refine ⟨htotal, ?_⟩
  rw [indexDataSize, wrapInt_eq (by omega) htotal,
    sizeT_eq (by omega) (by omega), Int.toNat_of_nonneg (by omega)]

theorem requestBytes_none {i : Fin 2} (hi : cmd.formats i = .none) : requestBytes cmd i = 0 := by
  rw [requestBytes, hi, getFormatStride, Nat.cast_zero, Int.zero_mul]
  rfl

theorem Laid.requestBytes_le (hl : Laid h) {i : Fin 2}
    (hdata : (BatchedDrawState.dataSize cmd h.state i : Int) =
      getFormatStride (cmd.formats i) * (h.state.vertexCount + cmd.vertexCount)) :
    requestBytes cmd i ≤ BatchedDrawState.dataSize cmd h.state i := by
  have hold : 0 ≤ (getFormatStride (cmd.formats i) : Int) * h.state.vertexCount :=
    Int.mul_nonneg (Int.natCast_nonneg _) hl.vertexCount.1
  rw [Int.mul_add] at hdata
  rw [requestBytes]
  omega

variable [DecidableEq Texture]

omit [DecidableEq Texture] in
theorem shouldResize_false {s : BatchedDrawState Texture}
    (hresize : shouldResize cmd s = false) :
    (∀ i, cmd.formats i ≠ .none →
      BatchedDrawState.dataSize cmd s i ≤ (s.vb i).getUsableSize) ∧
    (cmd.indexMode ≠ .none →
      indexDataSize cmd s ≤ s.indexBuffer.getUsableSize) := by
  simpa only [shouldResize, Bool.or_eq_false_iff, decide_eq_false_iff_not,
    not_exists, not_and, not_lt, gt_iff_lt] using hresize

theorem shouldFlush_false {s : BatchedDrawState Texture}
    (hflush : shouldFlush cmd s = false) :
    cmd.modes = s.modes ∧
    (∀ i, cmd.formats i ≠ .none → ∀ m ∈ s.vbMap i, BatchedDrawState.dataSize cmd s i ≤ m.size) ∧
    (cmd.indexMode ≠ .none →
      ∀ m ∈ s.indexBufferMap, indexDataSize cmd s ≤ m.size) := by
  simp only [shouldFlush, Bool.or_eq_false_iff, Bool.and_eq_false_iff,
    decide_eq_false_iff_not, not_exists, not_and, not_not, not_lt, gt_iff_lt] at hflush
  obtain ⟨⟨⟨hmodes, -⟩, hstreams⟩, hindices⟩ := hflush
  exact ⟨hmodes, hstreams, hindices⟩

/-- **Without a flush** there is room behind the batch. -/
theorem Laid.roomy (hl : Laid h) (hfit : Fitting h.state cmd)
    (hflush : shouldFlush cmd h.state = false)
    (hresize : shouldResize cmd h.state = false) : Roomy h.state cmd := by
  obtain ⟨hmodes, hmapped, hindexMapped⟩ := shouldFlush_false hflush
  obtain ⟨husable, hindexUsable⟩ := shouldResize_false hresize
  have hformats : cmd.formats = h.state.modes.formats := congrArg Modes.formats hmodes
  have hlt : ∀ i, cmd.formats i ≠ .none → BatchedDrawState.dataSize cmd h.state i < 2 ^ 63 := by
    intro i hi
    have hle := husable i hi
    have hsize := (hl.streams i).size_lt
    rw [getUsableSize] at hle
    omega
  have hindexLt : cmd.indexMode ≠ .none →
      indexDataSize cmd h.state < 2 ^ 63 := by
    intro hmode
    have hle := hindexUsable hmode
    have hsize := hl.indices.size_lt
    rw [getUsableSize] at hle
    omega
  constructor
  · obtain ⟨i, hi⟩ := hfit.formats
    exact (hl.dataSize_eq hfit hi (hlt i hi)).1
  · by_cases hmode : cmd.indexMode = .none
    · have hreq : getIndexCount cmd.indexMode cmd.vertexCount = 0 := by
        rw [hmode]
        rfl
      have hcount := hl.indexCount
      omega
    · exact (hl.indexDataSize_eq hfit (hindexLt hmode)).1
  · intro i m hm
    have hi : cmd.formats i ≠ .none := by
      intro hnone
      rw [hformats] at hnone
      rw [hl.unmapped i (.inr hnone)] at hm
      cases hm
    have hdata := (hl.dataSize_eq hfit hi (hlt i hi)).2
    have hle := hmapped i hi m hm
    have hold : 0 ≤ (getFormatStride (cmd.formats i) : Int) * h.state.vertexCount :=
      Int.mul_nonneg (Int.natCast_nonneg _) hl.vertexCount.1
    have hnew : 0 ≤ (getFormatStride (cmd.formats i) : Int) * cmd.vertexCount :=
      Int.mul_nonneg (Int.natCast_nonneg _) hfit.count.1
    rw [Int.mul_add] at hdata
    rw [streamBytes, ← hformats, requestBytes]
    omega
  · intro i _
    by_cases hi : cmd.formats i = .none
    · rw [requestBytes_none hi]
      exact Nat.zero_le _
    · exact (hl.requestBytes_le (hl.dataSize_eq hfit hi (hlt i hi)).2).trans (husable i hi)
  · intro hmode m hm
    have hdata := (hl.indexDataSize_eq hfit (hindexLt hmode)).2
    have hle := hindexMapped hmode m hm
    omega
  · intro hmode _
    have hdata := (hl.indexDataSize_eq hfit (hindexLt hmode)).2
    have hle := hindexUsable hmode
    have hcount := hl.indexCount
    omega

omit [DecidableEq Texture] in
theorem Laid.flush_setModes (hl : Laid h) (modes : Modes Texture) :
    Laid (h.flush.setState (h.flush.state.setModes modes)) := by
  have hf := hl.flush
  have hzero : ∀ i, streamBytes (h.flush.state.setModes modes) i = 0 :=
    fun i => streamBytes_zero hf.vertexCount
  constructor
  · change 0 ≤ h.flush.state.vertexCount ∧ h.flush.state.vertexCount < _
    rw [hf.vertexCount]
    omega
  · change 0 ≤ h.flush.state.indexCount ∧ h.flush.state.indexCount < _
    rw [hf.indexCount]
    omega
  · exact fun _ => hf.indexCount
  · exact fun _ => hf.indexCount
  · intro hpos
    change 0 < h.flush.state.vertexCount at hpos
    rw [hf.vertexCount] at hpos
    omega
  · intro i
    change Lent (h.flush.state.vb i) (h.flush.state.vbMap i) (h.flush.streams i)
      (streamBytes (h.flush.state.setModes modes) i)
    rw [hzero, hf.unmapped]
    exact hf.streams i
  · exact fun i _ => hf.unmapped i
  · change Lent _ _ _ (2 * h.flush.state.indexCount).toNat
    rw [hf.indexCount]
    exact hf.indices

omit [DecidableEq Texture] in
/-- What the flush for a request leaves of the mapped index buffer is large enough. -/
theorem Laid.stale (hl : Laid h) (hfit : Fitting h.state cmd) (hmode : cmd.indexMode ≠ .none)
    {m : MapInfo} (hm : h.flush.state.indexBufferMap = some m) :
    indexDataSize cmd h.state ≤ m.size ∧
      m.size ≤ h.state.indexBuffer.getUsableSize ∧ h.state.indexBufferMap = some m := by
  obtain ⟨hsame, hidle⟩ := hl.flush.stale (by rw [hm]; exact Option.some_ne_none m)
  rw [hm] at hsame
  exact ⟨hfit.stale hmode hidle m hsame.symm, hl.indices.map_le m hsame.symm, hsame.symm⟩

omit [DecidableEq Texture] in
/-- **After a flush** there is room, in buffers that have grown where they had to. -/
theorem Laid.roomy_flushed (hl : Laid h) (hfit : Fitting h.state cmd) {t : BatchedDrawState Texture}
    (hvertices : t.vertexCount = 0) (hcount : t.indexCount = 0)
    (hmaps : ∀ i, t.vbMap i = none) (hindexMap : t.indexBufferMap = h.flush.state.indexBufferMap)
    (hstreams : ∀ i, cmd.formats i ≠ .none →
      BatchedDrawState.dataSize cmd h.state i < 2 ^ 63 ∧
      (BatchedDrawState.dataSize cmd h.state i ≤ (t.vb i).getUsableSize ∨
        (t.vb i = h.flush.state.vb i ∧
          BatchedDrawState.dataSize cmd h.state i ≤ (h.state.vb i).getUsableSize)))
    (hindices : cmd.indexMode ≠ .none →
      indexDataSize cmd h.state < 2 ^ 63 ∧
      (indexDataSize cmd h.state ≤ t.indexBuffer.getUsableSize ∨
        (t.indexBuffer = h.flush.state.indexBuffer ∧
          indexDataSize cmd h.state ≤ h.state.indexBuffer.getUsableSize))) :
    Roomy t cmd := by
  have hf := hl.flush
  constructor
  · rw [hvertices, Int.zero_add]
    exact hfit.count.2
  · rw [hcount, Int.zero_add]
    exact getIndexCount_lt _ _
  · intro i m hm
    rw [hmaps] at hm
    cases hm
  · intro i _
    by_cases hi : cmd.formats i = .none
    · rw [requestBytes_none hi]
      exact Nat.zero_le _
    · obtain ⟨hlt, hroom⟩ := hstreams i hi
      have hdata := (hl.dataSize_eq hfit hi hlt).2
      have hbytes := hl.requestBytes_le hdata
      rcases hroom with hle | ⟨hsame, hle⟩
      · exact hbytes.trans hle
      · -- The buffer is the old one: it has the room that the batch has left.
        rw [hsame]
        have husable := hf.usable i
        cases hadvances : (h.state.vb i).advances with
        | false =>
          rw [hadvances] at husable
          simp only [Bool.false_eq_true, if_false] at husable
          omega
        | true =>
          rw [hadvances, if_pos rfl, streamBytes] at husable
          have hboth := hfit.room i hadvances (by omega)
          have hold : 0 ≤ (getFormatStride (h.state.modes.formats i) : Int) * h.state.vertexCount :=
            Int.mul_nonneg (Int.natCast_nonneg _) hl.vertexCount.1
          rw [requestBytes]
          omega
  · intro hmode m hm
    rw [hindexMap] at hm
    obtain ⟨hle, -, -⟩ := hl.stale hfit hmode hm
    have hdata := (hl.indexDataSize_eq hfit (hindices hmode).1).2
    have hold := hl.indexCount
    omega
  · intro hmode _
    obtain ⟨hlt, hroom⟩ := hindices hmode
    have hdata := (hl.indexDataSize_eq hfit hlt).2
    have hold := hl.indexCount
    rcases hroom with hle | ⟨hsame, hle⟩
    · omega
    · have husable := hf.indexUsable
      rw [hsame]
      omega

/-- A request that is refused: `validateDrawState` throws, behind the flush. -/
def Unmet (s : BatchedDrawState Texture) (cmd : BatchedDrawCommand Texture) (valid : Bool) : Prop :=
  (BatchedDrawState.flushFor cmd s).vertexCount = 0 ∧ !valid

omit [DecidableEq Texture] in
theorem flush_state (h : Handing Texture) : h.flush.state = h.state.flushBatchedDraws := by
  rw [Handing.flush]
  split
  · next hempty =>
    rw [flushBatchedDraws, if_pos hempty]
  · rfl

omit [DecidableEq Texture] in
theorem met_eq {before s : BatchedDrawState Texture}
    (hmaps : s.vbMap = h.state.vbMap) (hindexMap : s.indexBufferMap = h.state.indexBufferMap)
    (hstreams : ∀ i, (h.streams i).renew (shouldResize cmd before &&
      decide ((before.vb i).size < BatchedDrawState.bufferSize cmd before i)) = h.streams i)
    (hindices : h.indices.renew (shouldResize cmd before &&
      decide (before.indexBuffer.size < indexBufferSize cmd before)) = h.indices) :
    h.met cmd before (BatchedDrawState.append cmd s).1 (BatchedDrawState.append cmd s).2 =
      (h.setState s).append cmd := by
  have hvb := append_vb cmd s
  have hindexBuffer : ∀ map size, h.indices.hand (BatchedDrawState.append cmd s).2.indexBuffer map
      ⟨(map.getD (BatchedDrawState.append cmd s).2.indexBuffer.map).data, size⟩ =
      h.indices.hand s.indexBuffer map ⟨(map.getD s.indexBuffer.map).data, size⟩ := by
    intro map size
    rw [BatchedDrawState.append]
    split <;> rfl
  rw [Handing.met, Handing.append]
  congr 1
  · funext i
    rw [hstreams i, hvb, ← hmaps]
    change (match (if 0 < newDataSize cmd i then
      some ((s.vbMap i).getD (s.vb i).map).data else none) with | none => _ | some address => _) = _
    split
    · next hnone =>
      split at hnone
      · cases hnone
      · next hzero => exact (if_neg hzero).symm
    · next address hsome =>
      split at hsome
      · next hpos =>
        cases hsome
        exact (if_pos hpos).symm
      · cases hsome
  · rw [hindices, ← hindexMap]
    split
    · rfl
    · exact hindexBuffer _ _

omit [DecidableEq Texture] in
/-- **A request for which buffers grow.** -/
theorem Laid.resized (hl : Laid h) (hfit : Fitting h.state cmd) {room : Bool}
    {t : BatchedDrawState Texture}
    (hgrown : resize room (BatchedDrawState.bufferSize cmd h.state)
      (indexBufferSize cmd h.state) (h.flush.state.setModes cmd.modes) = some t) :
    Laid ((h.flush.setState (h.flush.state.setModes cmd.modes)).met cmd h.state
      (BatchedDrawState.append cmd t).1 (BatchedDrawState.append cmd t).2) := by
  have hf := hl.flush
  obtain ⟨hvb, hindexBuffer, ht⟩ := resize_cases hgrown
  replace hvb : ∀ i, BatchedDrawState.grow room (BatchedDrawState.bufferSize cmd h.state i)
      (h.flush.state.vb i) = some (t.vb i) := hvb
  replace hindexBuffer : BatchedDrawState.grow room (indexBufferSize cmd h.state)
      h.flush.state.indexBuffer = some t.indexBuffer := hindexBuffer
  have hmodes : t.modes = cmd.modes := congrArg BatchedDrawState.modes ht
  have hvertices : t.vertexCount = 0 :=
    (congrArg BatchedDrawState.vertexCount ht).trans hf.vertexCount
  have hcount : t.indexCount = 0 := (congrArg BatchedDrawState.indexCount ht).trans hf.indexCount
  have hmaps : t.vbMap = h.flush.state.vbMap := by
    have heq := congrArg vbMap ht
    exact heq
  have hindexMap : t.indexBufferMap = h.flush.state.indexBufferMap := by
    have heq := congrArg BatchedDrawState.indexBufferMap ht
    exact heq
  -- The index buffer is only replaced when it has nothing mapped.
  have hreplaced : h.flush.state.indexBuffer.size < indexBufferSize cmd h.state →
      h.flush.state.indexBufferMap = none := by
    intro hlt
    cases hmap : h.flush.state.indexBufferMap with
    | none => rfl
    | some m =>
      by_cases hin : cmd.indexMode ≠ .none ∧
          indexDataSize cmd h.state > h.state.indexBuffer.getUsableSize
      · obtain ⟨hle, husable, -⟩ := hl.stale hfit hin.1 hmap
        omega
      · rw [indexBufferSize, if_neg hin] at hlt
        omega
  have hreleased : h.flush.indices.renew (shouldResize cmd h.state &&
      decide (h.state.indexBuffer.size < indexBufferSize cmd h.state)) =
        h.flush.indices := by
    by_cases hlt : h.state.indexBuffer.size < indexBufferSize cmd h.state
    · have hlent := hf.indices
      rw [hreplaced (hf.indexSize ▸ hlt)] at hlent
      rw [hlent.used_eq_zero.2, renew_released]
    · rw [decide_eq_false hlt, Bool.and_false]
      rfl
  have hstreams : ∀ i, (h.flush.streams i).renew (shouldResize cmd h.state &&
      decide ((h.state.vb i).size < BatchedDrawState.bufferSize cmd h.state i)) =
        h.flush.streams i := by
    intro i
    rw [(hf.streams i).used_eq_zero.2, renew_released]
  have hmet := @met_eq Texture cmd (h.flush.setState (h.flush.state.setModes cmd.modes)) h.state t
    hmaps hindexMap hstreams hreleased
  rw [hmet]
  have hlaid : Laid (h.flush.setState t) := by
    constructor
    · change 0 ≤ t.vertexCount ∧ t.vertexCount < _
      omega
    · change 0 ≤ t.indexCount ∧ t.indexCount < _
      omega
    · exact fun _ => hcount
    · exact fun _ => hcount
    · intro hpos
      change 0 < t.vertexCount at hpos
      omega
    · intro i
      change Lent (t.vb i) (t.vbMap i) (h.flush.streams i) (streamBytes t i)
      rw [hmaps, hf.unmapped, streamBytes_zero hvertices]
      exact (hf.streams i).grow (hvb i)
    · intro i _
      change t.vbMap i = none
      rw [hmaps]
      exact hf.unmapped i
    · change Lent t.indexBuffer t.indexBufferMap h.flush.indices (2 * t.indexCount).toNat
      rw [hcount, hindexMap]
      rcases grow_cases hindexBuffer with ⟨hsame, -⟩ | ⟨hlt, -⟩
      · rw [hsame]
        exact hf.indices
      · have hlent := hf.indices
        rw [hreplaced hlt] at hlent ⊢
        exact hlent.grow hindexBuffer
  refine hlaid.append hmodes.symm hfit.count hfit.formats hfit.indices
    (hl.roomy_flushed hfit hvertices hcount (fun i => hmaps ▸ hf.unmapped i) hindexMap ?_ ?_)
  · intro i hi
    have hold := (hl.streams i).size_lt
    by_cases hdata : BatchedDrawState.dataSize cmd h.state i > (h.state.vb i).getUsableSize
    · have hbuffer : BatchedDrawState.bufferSize cmd h.state i =
          max (BatchedDrawState.dataSize cmd h.state i) ((h.state.vb i).size * 2) :=
        if_pos ⟨hi, hdata⟩
      have hsize := hf.size i
      have husable : (h.state.vb i).getUsableSize ≤ (h.state.vb i).size := Nat.sub_le _ _
      rcases grow_cases (hvb i) with ⟨-, hkept⟩ | ⟨-, hlt, hoffset, hnew⟩
      · have hoffset := (hl.streams i).offset_le
        omega
      · refine ⟨by omega, .inl ?_⟩
        change _ ≤ (t.vb i).size - (t.vb i).offset
        omega
    · have hbuffer : BatchedDrawState.bufferSize cmd h.state i = 0 := if_neg fun hin => hdata hin.2
      have husable : (h.state.vb i).getUsableSize ≤ (h.state.vb i).size := Nat.sub_le _ _
      rcases grow_cases (hvb i) with ⟨hsame, -⟩ | ⟨hlt, -⟩
      · exact ⟨by omega, .inr ⟨hsame, Nat.le_of_not_gt hdata⟩⟩
      · omega
  · intro hmode
    have hold := hl.indices.size_lt
    by_cases hdata : indexDataSize cmd h.state > h.state.indexBuffer.getUsableSize
    · have hbuffer : indexBufferSize cmd h.state =
          max (indexDataSize cmd h.state) (h.state.indexBuffer.size * 2) :=
        if_pos ⟨hmode, hdata⟩
      have hsize := hf.indexSize
      rcases grow_cases hindexBuffer with ⟨-, hkept⟩ | ⟨-, hlt, hoffset, hnew⟩
      · have hoffset := hl.indices.offset_le
        omega
      · refine ⟨by omega, .inl ?_⟩
        change _ ≤ t.indexBuffer.size - t.indexBuffer.offset
        omega
    · have hbuffer : indexBufferSize cmd h.state = 0 := if_neg fun hin => hdata hin.2
      have husable : h.state.indexBuffer.getUsableSize ≤ h.state.indexBuffer.size := Nat.sub_le _ _
      rcases grow_cases hindexBuffer with ⟨hsame, -⟩ | ⟨hlt, -⟩
      · exact ⟨by omega, .inr ⟨hsame, Nat.le_of_not_gt hdata⟩⟩
      · omega

/-- **One request**: refused or met. -/
theorem Laid.request (hl : Laid h) {valid room : Bool}
    (hfit : Unmet h.state cmd valid ∨ Fitting h.state cmd)
    (hstep : Handing.step h (.request cmd valid room) = some h') : Laid h' := by
  have hflushed := hl.flush_setModes cmd.modes
  rw [Handing.step, requestBatchedDraw] at hstep
  cases hflush : shouldFlush cmd h.state ||
      shouldResize cmd h.state with
  | false =>
    obtain ⟨hnot, hresize⟩ := Bool.or_eq_false_iff.mp hflush
    have hfor : .flushFor cmd h.state = h.state := by
      rw [BatchedDrawState.flushFor, hflush]
      rfl
    have hsame : h.flushFor cmd = h := by
      rw [Handing.flushFor, hflush]
      rfl
    rw [hfor, hsame] at hstep
    by_cases hrefused : h.state.vertexCount = 0 ∧ !valid
    · rw [if_pos hrefused] at hstep
      cases hstep
      exact hl
    · have hfit : Fitting h.state cmd := hfit.resolve_left fun hin => hrefused (hfor ▸ hin)
      rw [if_neg hrefused, hresize] at hstep
      cases hstep
      rw [met_eq rfl rfl (fun i => by rw [hresize]; rfl) (by rw [hresize]; rfl)]
      exact hl.append (shouldFlush_false hnot).1 hfit.count hfit.formats hfit.indices
        (hl.roomy hfit hnot hresize)
  | true =>
    have hfor : .flushFor cmd h.state = h.flush.state.setModes cmd.modes := by
      rw [BatchedDrawState.flushFor, hflush, flush_state]
      rfl
    have hareas : h.flushFor cmd = h.flush.setState (h.flush.state.setModes cmd.modes) := by
      rw [Handing.flushFor, hflush, if_pos rfl, hfor]
    rw [Unmet, hfor] at hfit
    rw [hfor, hareas] at hstep
    by_cases hrefused : (h.flush.state.setModes cmd.modes).vertexCount = 0 ∧ !valid
    · rw [if_pos hrefused] at hstep
      cases hstep
      exact hflushed
    · have hfit : Fitting h.state cmd := hfit.resolve_left hrefused
      have hf := hl.flush
      rw [if_neg hrefused] at hstep
      cases hresize : shouldResize cmd h.state with
      | false =>
        rw [hresize] at hstep
        cases hstep
        obtain ⟨husable, hindexUsable⟩ := shouldResize_false hresize
        have hmet := @met_eq Texture cmd (h.flush.setState (h.flush.state.setModes cmd.modes))
          h.state (h.flush.state.setModes cmd.modes) rfl rfl (fun i => by rw [hresize]; rfl)
          (by rw [hresize]; rfl)
        rw [hmet]
        refine hflushed.append rfl hfit.count hfit.formats hfit.indices
          (hl.roomy_flushed hfit hf.vertexCount hf.indexCount hf.unmapped rfl ?_ ?_)
        · intro i hi
          have hle := husable i hi
          have hsize := (hl.streams i).size_lt
          rw [getUsableSize] at hle
          exact ⟨by omega, .inr ⟨rfl, husable i hi⟩⟩
        · intro hmode
          have hle := hindexUsable hmode
          have hsize := hl.indices.size_lt
          rw [getUsableSize] at hle
          exact ⟨by omega, .inr ⟨rfl, hindexUsable hmode⟩⟩
      | true =>
        rw [hresize, if_pos rfl] at hstep
        cases hgrown : resize room (BatchedDrawState.bufferSize cmd h.state)
            (indexBufferSize cmd h.state)
            (h.flush.state.setModes cmd.modes) with
        | none =>
          rw [hgrown] at hstep
          cases hstep
        | some t =>
          rw [hgrown] at hstep
          cases hstep
          exact hl.resized hfit hgrown

end Request

/-! ## Runs -/

theorem Laid.nextFrame {h : Handing Texture} (hl : Laid h) : Laid h.nextFrame :=
  ⟨hl.vertexCount, hl.indexCount, hl.empty, hl.notIndexed, hl.drawn,
    fun i => (hl.streams i).nextFrame, hl.unmapped, hl.indices.nextFrame⟩

theorem Laid.flush_laid {h : Handing Texture} (hl : Laid h) : Laid h.flush :=
  hl.flush_setModes h.flush.state.modes

theorem start_laid (advances : Bool) (bytes : Nat → BitVec 8) (indices : Nat → Index) :
    Laid (Handing.start advances bytes indices : Handing Texture) := by
  constructor
  · exact ⟨le_rfl, Int.pow_pos (by decide)⟩
  · exact ⟨le_rfl, Int.pow_pos (by decide)⟩
  · exact fun _ => rfl
  · exact fun _ => rfl
  · exact fun hpos => absurd hpos (Int.lt_irrefl 0)
  · intro i
    refine .released (Nat.zero_le _) ?_
    change (if i = 0 then 1024 * 1024 else 256 * 1024) < 2 ^ 63
    split <;> decide
  · exact fun _ _ => rfl
  · refine .released (Nat.zero_le _) ?_
    change 2 * 65535 < 2 ^ 63
    decide

/-- **All sections are proper**: every section that was handed out since the last flush
is inside what its buffer has mapped, and no two have a byte in common. -/
def SectionsProper (h : Handing Texture) : Prop :=
  (∀ i, (h.streams i).Proper (h.state.vb i).size) ∧ h.indices.Proper h.state.indexBuffer.size

theorem Laid.proper {h : Handing Texture} (hl : Laid h) : SectionsProper h :=
  ⟨fun i => (hl.streams i).proper, hl.indices.proper⟩

/-- A step that there will be room for. -/
def Handing.Suitable [DecidableEq Texture] (h : Handing Texture) : HandOp Texture → Prop
  | .request cmd valid _ => Unmet h.state cmd valid ∨ Fitting h.state cmd
  | .flush => True
  | .nextFrame => True

/-- **Batched draws fit their stream buffers** in every run of requests, flushes and frames
in which the requests are fitting. -/
theorem sections_inside [DecidableEq Texture] {h : Handing Texture}
    (hrun : (Handing.handing.restrict Handing.Suitable).Reachable h) : SectionsProper h := by
  refine Laid.proper (System.Reachable.invariant_restrict
    ?_ ?_ hrun)
  · rintro _ ⟨advances, bytes, indices, rfl⟩
    exact start_laid advances bytes indices
  · intro h op h' hl hsuitable hstep
    cases op with
    | request cmd valid room => exact hl.request hsuitable hstep
    | flush =>
      cases hstep
      exact hl.flush_laid
    | nextFrame =>
      cases hstep
      exact hl.nextFrame

/-- Vertices of 24 bytes or of 8 bytes, `n` of them, without indices. -/
def plain (format : CommonFormat) (n : Int) : BatchedDrawCommand Unit :=
  ⟨.triangles, fun i => if i.val = 0 then format else .none, .none, n, none, .default⟩

theorem sections_inside_plain : ∃ h, System.run Handing.step
    (Handing.start true (fun _ => 0) (fun _ => 0) : Handing Unit)
      [.request (plain .XYf_STPf_RGBAub 3) true true, .nextFrame] = some h ∧ SectionsProper h := by
  refine ⟨_, rfl, sections_inside (.step (e := .nextFrame) (.step
    (e := .request (plain .XYf_STPf_RGBAub 3) true true) (.init ⟨true, fun _ => 0, fun _ => 0, rfl⟩)
    ⟨.inr ⟨by decide, ⟨0, by decide⟩, by decide, ?_, ?_⟩, rfl⟩) ⟨trivial, rfl⟩)⟩
  · decide
  · exact fun hmode => absurd rfl hmode

/-- Behind 43690 vertices of 24 bytes there are 16 bytes left for 100 of 8 bytes. -/
theorem not_always_inside : ∃ h : Handing Unit, Handing.handing.Reachable h ∧ ¬ SectionsProper h := by
  refine ⟨_, .step (e := .request (plain .XYf 100) true true)
    (.step (e := .request (plain .XYf_STPf_RGBAub 43690) true true)
      (.init ⟨true, fun _ => 0, fun _ => 0, rfl⟩) rfl) rfl, ?_⟩
  intro hproper
  obtain ⟨m, hm, hinside⟩ := (hproper.1 0).inside ⟨1048560, 800⟩ (by decide)
  have hmapped : some (⟨1048560, 16⟩ : Section) = some m := hm
  cases hmapped
  exact absurd hinside.2 (by decide)

end Lhatove.Graphics
