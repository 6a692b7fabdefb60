import Lhatove.Graphics.SpriteBatch

/-!
# What a sprite batch uploads

- `Uploaded`: the invariant; sprites that were not modified are in the buffer as
  they are in memory;
- `flush_spec`: an upload is inside of both, and after it all sprites are in the
  buffer;
- `spriteBatch_uploads`: all runs in which no sprite is cut off while it is
  modified.
-/

namespace Lhatove.Graphics

open SpriteBatch

/-! ## The invariant -/

/-- A sprite is in the buffer as it is in memory. -/
def SpriteBatch.Agrees (s : SpriteBatch) (sprite : Nat) : Prop :=
  ∀ k < s.spriteSize, s.arrayBuf.bytes (sprite * s.spriteSize + k) =
    s.vertexData.bytes (sprite * s.spriteSize + k)

structure Uploaded (s : SpriteBatch) : Prop where
  size_pos : 0 < s.size
  size_lt : s.size < 2 ^ 31
  next_le : s.next ≤ s.size
  vertices : s.size * s.spriteSize ≤ s.vertexData.size
  buffer : s.arrayBuf.size = s.size * s.spriteSize
  usage : s.arrayBuf.usage ≠ .readback
  modified : s.modifiedSprites = .invalid ∨
    s.modifiedSprites.isValid = true ∧ s.modifiedSprites.last < s.size
  agrees : ∀ sprite < s.next, ¬ s.modifiedSprites.Mem sprite → s.Agrees sprite

theorem spriteSize_pos (s : SpriteBatch) : 0 < s.spriteSize := by
  rw [spriteSize, vertexStride]
  split <;> decide

theorem spriteSize_le (s : SpriteBatch) : s.spriteSize ≤ 96 := by
  rw [spriteSize, vertexStride]
  split <;> decide

variable {s s' : SpriteBatch}

theorem spriteSize_congr (h : s'.texture = s.texture) : s'.spriteSize = s.spriteSize := by
  rw [spriteSize, spriteSize, vertexStride, vertexStride, h]

variable {b sprite n k : Nat}

theorem lt_of_sprite_lt (h : sprite < n) (hk : k < b) : sprite * b + k < n * b := by
  have hnext := Nat.mul_le_mul_right b (show sprite + 1 ≤ n from h)
  rw [Nat.add_mul, one_mul] at hnext
  omega

theorem le_of_le_sprite (h : n ≤ sprite) : n * b ≤ sprite * b + k :=
  le_trans (Nat.mul_le_mul_right b h) (Nat.le_add_right ..)

theorem mem_invalid {r : Range} (h : r.isValid = false) : ¬ r.Mem sprite := by
  intro hmem
  rw [Range.isValid_of_mem hmem] at h
  cases h

variable {offset size : Nat}

theorem ArrayBuffer.fill_eq {buffer : ArrayBuffer} {data : Nat → UInt8} (hsize : 0 < size)
    (husage : buffer.usage ≠ .readback) (hbuffer : buffer.size ≤ 2 ^ 64)
    (h : offset + size ≤ buffer.size) :
    buffer.fill offset size data = (true, { buffer with
      bytes := writeCells buffer.bytes buffer.size offset (readCells data 0 size) }) := by
  rw [fill, if_neg, Range.ofSize_contains hbuffer hsize h, if_neg (by decide)]
  rintro (hzero | hreadback)
  · omega
  · exact husage hreadback

theorem Uploaded.buffer_le (hs : Uploaded s) : s.arrayBuf.size ≤ 2 ^ 64 := by
  rw [hs.buffer]
  have hle := Nat.mul_le_mul (Nat.le_of_lt hs.size_lt) (spriteSize_le s)
  exact le_trans hle (by decide)

/-! ## Flushes -/

theorem Uploaded.upload_le (hs : Uploaded s) (h : s.upload = some (offset, n)) :
    0 < n ∧ offset + n ≤ s.vertexData.size ∧ offset + n ≤ s.arrayBuf.size := by
  have hb := spriteSize_pos s
  have hvertices := hs.vertices
  have hbuffer := hs.buffer
  rw [upload] at h
  split_ifs at h with hvalid hstream
  · cases h
    rw [zero_add, hbuffer]
    exact ⟨Nat.mul_pos hs.size_pos hb, hvertices, le_refl _⟩
  · cases h
    have hlast : s.modifiedSprites.last < s.size := by
      rcases hs.modified with hinvalid | ⟨-, hlast⟩
      · rw [hinvalid] at hvalid
        cases hvalid
      · exact hlast
    have hfirst := Range.isValid_iff.mp hvalid
    have hend := Nat.mul_le_mul_right s.spriteSize (show s.modifiedSprites.getOffset +
      s.modifiedSprites.getSize ≤ s.size by rw [Range.getOffset, Range.getSize]; omega)
    rw [Nat.add_mul] at hend
    exact ⟨Nat.mul_pos (Nat.succ_pos _) hb, by omega, by omega⟩

/-- **An upload** leaves every sprite in the buffer as it is in memory. -/
theorem Uploaded.flush_agrees (hs : Uploaded s)
    (hsprite : sprite < s.next) : s.flush.Agrees sprite := by
  rw [flush]
  cases hupload : s.upload with
  | none =>
    refine hs.agrees sprite hsprite (mem_invalid ?_)
    rw [upload] at hupload
    split_ifs at hupload with hvalid
    exact (Bool.not_eq_true _).mp hvalid
  | some interval =>
    obtain ⟨offset, n⟩ := interval
    obtain ⟨hn, -, hbuffer⟩ := hs.upload_le hupload
    intro k hk
    have hk : k < s.spriteSize := hk
    dsimp only [spriteSize, vertexStride]
    rw [ArrayBuffer.fill_eq hn hs.usage hs.buffer_le hbuffer]
    show writeCells s.arrayBuf.bytes s.arrayBuf.size offset (readCells _ 0 n)
      (sprite * s.spriteSize + k) = s.vertexData.bytes (sprite * s.spriteSize + k)
    have hlt := lt_of_sprite_lt (lt_of_lt_of_le hsprite hs.next_le) hk
    by_cases hin : offset ≤ sprite * s.spriteSize + k ∧ sprite * s.spriteSize + k < offset + n
    · rw [writeCells_readCells hbuffer hin.1 hin.2, zero_add, Nat.add_sub_cancel' hin.1]
    · -- The sprite is not in the upload, so it was not modified.
      rw [writeCells_of_outside (by rw [readCells_length]; omega)]
      refine hs.agrees sprite hsprite (fun hmem => hin ?_) k hk
      rw [upload, if_pos (Range.isValid_of_mem hmem)] at hupload
      split_ifs at hupload
      · cases hupload
        rw [hs.buffer, zero_add]
        exact ⟨Nat.zero_le _, hlt⟩
      · cases hupload
        have hend := lt_of_sprite_lt (Nat.lt_succ_of_le hmem.2) hk
        rw [← Nat.add_mul, Range.getOffset, Range.getSize,
          show s.modifiedSprites.first + (s.modifiedSprites.last - s.modifiedSprites.first + 1) =
            s.modifiedSprites.last + 1 by have := hmem.1; have := hmem.2; omega]
        exact ⟨le_of_le_sprite hmem.1, hend⟩

theorem Uploaded.flush (hs : Uploaded s) : Uploaded s.flush := by
  have hagrees : ∀ sprite < s.next, s.flush.Agrees sprite := fun _ => hs.flush_agrees
  rw [SpriteBatch.flush] at hagrees ⊢
  cases hupload : s.upload with
  | none => exact hs
  | some interval =>
    rw [hupload] at hagrees
    obtain ⟨hn, -, hbuffer⟩ := hs.upload_le hupload
    dsimp only at hagrees ⊢
    rw [ArrayBuffer.fill_eq hn hs.usage hs.buffer_le hbuffer] at hagrees ⊢
    exact { hs with modified := .inl rfl, agrees := fun sprite hsprite _ => hagrees sprite hsprite }

/-! ## Sprites -/

theorem put_vertices_of_ne {i : Nat} {vertices : List UInt8}
    (hlength : vertices.length = s.spriteSize) (hne : sprite ≠ i) (hk : k < s.spriteSize) :
    (s.put i vertices).vertexData.bytes (sprite * s.spriteSize + k) =
      s.vertexData.bytes (sprite * s.spriteSize + k) := by
  refine writeCells_of_outside ?_
  rw [hlength]
  rcases Nat.lt_or_gt_of_ne hne with hlt | hgt
  · exact .inl (lt_of_sprite_lt hlt hk)
  · refine .inr ?_
    rw [← Nat.succ_mul]
    exact le_of_le_sprite hgt

/-- **A sprite that is written** is modified; it may be the next one. -/
theorem Uploaded.put (hs : Uploaded s) {i next : Nat} {vertices : List UInt8}
    (hlength : vertices.length = s.spriteSize) (hi : i < s.size) (hnext : next ≤ s.size)
    (hold : ∀ sprite < next, sprite ≠ i → sprite < s.next) :
    Uploaded { s.put i vertices with next := next } where
  size_pos := hs.size_pos
  size_lt := hs.size_lt
  next_le := hnext
  vertices := hs.vertices
  buffer := hs.buffer
  usage := hs.usage
  modified := .inr ⟨Range.encapsulate_isValid _ _,
    Range.encapsulate_last_lt hi (hs.modified.imp_right And.right)⟩
  agrees sprite hsprite hmem k hk := by
    have hne : sprite ≠ i := fun heq => hmem (heq ▸ Range.encapsulate_mem _ _)
    have hclean : ¬ s.modifiedSprites.Mem sprite := fun hin => hmem (hin.encapsulate i)
    refine .trans ?_ (put_vertices_of_ne hlength hne hk).symm
    exact hs.agrees sprite (hold sprite hsprite hne) hclean k hk

/-! ## Sizes -/

/-- A change of the size does not cut off what is modified; and if there is no
new buffer, the old vertices are where they were. -/
def Resize.Kept (env : Resize) (s : SpriteBatch) (newsize : Int) : Prop :=
  0 < newsize → newsize.toNat ≠ s.size → env.block ≠ .failed →
    (env.newBuffer = none → newsize < s.size → s.modifiedSprites.isValid = true →
      s.modifiedSprites.last < newsize) ∧
    (env.newBuffer ≠ none → env.block = .inPlace ∧ s.size < newsize)

theorem realloc_bytes {block : Block} {address : Nat} (fresh : Nat → UInt8)
    (h : address < block.size) : (block.realloc size fresh).bytes address = block.bytes address :=
  if_pos h

theorem Uploaded.resized (hs : Uploaded s) (env : Resize) (hpos : 0 < size) (hlt : size < 2 ^ 31)
    (hmodified : s.modifiedSprites.isValid = true → s.modifiedSprites.last < size) :
    Uploaded { s with
      vertexData := s.vertexData.realloc (s.spriteSize * size) env.fresh
      arrayBuf := ((⟨s.spriteSize * size, s.arrayBuf.usage, env.junk⟩ : ArrayBuffer).fill 0
        (s.spriteSize * min s.next size)
        (s.vertexData.realloc (s.spriteSize * size) env.fresh).bytes).2
      size := size
      next := min s.next size } := by
  have hb := spriteSize_pos s
  let buffer : ArrayBuffer := ⟨s.spriteSize * size, s.arrayBuf.usage, env.junk⟩
  have hbuffer : buffer.size ≤ 2 ^ 64 := by
    have hle := Nat.mul_le_mul (spriteSize_le s) (Nat.le_of_lt hlt)
    exact le_trans hle (by decide)
  have husage : buffer.usage ≠ .readback := hs.usage
  have hroom : 0 + s.spriteSize * min s.next size ≤ buffer.size := by
    rw [zero_add]
    exact Nat.mul_le_mul_left _ (min_le_right ..)
  -- With no sprite left, nothing is written.
  have hfill : ∀ data, (buffer.fill 0 (s.spriteSize * min s.next size) data).2.size = buffer.size ∧
      (buffer.fill 0 (s.spriteSize * min s.next size) data).2.usage = buffer.usage := by
    intro data
    by_cases hzero : min s.next size = 0
    · rw [hzero, mul_zero, ArrayBuffer.fill, if_pos (.inl rfl)]
      exact ⟨rfl, rfl⟩
    · rw [ArrayBuffer.fill_eq (Nat.mul_pos hb (Nat.pos_of_ne_zero hzero)) husage hbuffer hroom]
      exact ⟨rfl, rfl⟩
  refine ⟨hpos, hlt, min_le_right .., ?_, ?_, ?_, ?_, ?_⟩
  · exact le_of_eq (Nat.mul_comm ..)
  · exact (hfill _).1.trans (Nat.mul_comm ..)
  · intro hreadback
    exact hs.usage ((hfill _).2.symm.trans hreadback)
  · rcases hs.modified with hnone | ⟨hvalid, -⟩
    · exact .inl hnone
    · exact .inr ⟨hvalid, hmodified hvalid⟩
  · intro sprite hsprite hmem k hk
    have hsprite : sprite < min s.next size := hsprite
    have hk : k < s.spriteSize := hk
    have hlt' := lt_of_sprite_lt hsprite hk
    rw [Nat.mul_comm (min s.next size)] at hlt'
    show (buffer.fill 0 (s.spriteSize * min s.next size) _).2.bytes
      (sprite * s.spriteSize + k) = _
    rw [ArrayBuffer.fill_eq (Nat.mul_pos hb (Nat.zero_lt_of_lt hsprite)) husage hbuffer hroom]
    exact (writeCells_readCells hroom (Nat.zero_le _) (by omega)).trans (by rw [zero_add]; rfl)

/-- More memory for the vertices, where they are. -/
theorem Uploaded.reallocated (hs : Uploaded s) (env : Resize) (hsize : s.size ≤ size) :
    Uploaded { s with vertexData := s.vertexData.realloc (s.spriteSize * size) env.fresh } := by
  refine { hs with vertices := ?_, agrees := ?_ }
  · show s.size * s.spriteSize ≤ s.spriteSize * size
    rw [Nat.mul_comm s.spriteSize]
    exact Nat.mul_le_mul_right _ hsize
  · intro sprite hsprite hmem k hk
    have hlt := lt_of_sprite_lt (lt_of_lt_of_le hsprite hs.next_le) hk
    refine (hs.agrees sprite hsprite hmem k hk).trans (realloc_bytes _ ?_).symm
    exact lt_of_lt_of_le hlt hs.vertices

variable {env : Resize} {newsize : Int}

/-- **A change of the size** keeps the invariant. -/
theorem Uploaded.setBufferSize (hs : Uploaded s) (hlt : newsize < 2 ^ 31)
    (hkept : env.Kept s newsize) :
    Uploaded (s.setBufferSize env newsize).2 := by
  rw [SpriteBatch.setBufferSize]
  by_cases hpos : newsize ≤ 0
  · rw [if_pos hpos]
    exact hs
  by_cases hsame : newsize.toNat = s.size
  · rw [if_neg hpos, if_pos hsame]
    exact hs
  by_cases hfailed : env.block = .failed
  · rw [if_neg hpos, if_neg hsame, if_pos hfailed]
    exact hs
  rw [if_neg hpos, if_neg hsame, if_neg hfailed]
  obtain ⟨hshrink, hplace⟩ := hkept (not_le.mp hpos) hsame hfailed
  cases hbuffer : env.newBuffer with
  | none =>
    refine hs.resized env (by omega) (by omega) fun hvalid => ?_
    rcases hs.modified with hnone | ⟨-, hlast⟩
    · rw [hnone] at hvalid
      cases hvalid
    · by_cases hless : newsize < s.size
      · have := hshrink hbuffer hless hvalid
        omega
      · omega
  | some message =>
    obtain ⟨hin, hgrown⟩ := hplace (by rw [hbuffer]; nofun)
    dsimp only
    rw [if_neg (by rw [hin]; nofun)]
    exact hs.reallocated env (by omega)

/-! ## Calls -/

theorem doubledSize_lt (s : SpriteBatch) : s.doubledSize < 2 ^ 31 :=
  Int.bmod_lt (by decide)

theorem bmod_double (hlt : n < 2 ^ 31) (h : 0 < (n * 2 : Int).bmod (2 ^ 32)) :
    (n * 2 : Int).bmod (2 ^ 32) = n * 2 := by
  have hm : ((2 ^ 32 : Nat) : Int) = 4294967296 := by norm_num
  have hl : (2 ^ 31 : Nat) = 2147483648 := by norm_num
  rw [Int.bmod_def, hm] at h ⊢
  rw [hl] at hlt
  split_ifs at h ⊢ <;> omega

theorem doubledSize_eq (hs : Uploaded s) (h : 0 < s.doubledSize) : s.doubledSize = s.size * 2 :=
  bmod_double hs.size_lt h

/-- More room than sprites, if `setBufferSize` does not throw. -/
theorem setBufferSize_grown (hs : Uploaded s) (hdouble : 0 < newsize → newsize = s.size * 2)
    (h : s.setBufferSize env newsize = (none, s')) :
    s'.next < s'.size ∧ s'.spriteSize = s.spriteSize := by
  rw [SpriteBatch.setBufferSize] at h
  by_cases hpos : newsize ≤ 0
  · rw [if_pos hpos] at h
    cases h
  have hnext := hs.next_le
  have hne : ¬ newsize.toNat = s.size := by omega
  rw [if_neg hpos, if_neg hne] at h
  split at h
  · cases h
  split at h
  · cases h
  · cases h
    have hroom : min s.next newsize.toNat < newsize.toNat := by omega
    exact ⟨hroom, spriteSize_congr rfl⟩

theorem Uploaded.place (hs : Uploaded s) {index : Int} {vertices : BitVec 32 → List UInt8}
    (hlength : ∀ color, (vertices color).length = s.spriteSize)
    (hindex : -1 ≤ index ∧ index < s.size)
    (hkept : index = -1 → s.size ≤ s.next → env.Kept s s.doubledSize) :
    Uploaded (s.place env index vertices).2 := by
  rw [SpriteBatch.place]
  split
  next hnew =>
    split
    next hfull =>
      have hresized := hs.setBufferSize (doubledSize_lt s) (hkept hnew hfull)
      cases hset : s.setBufferSize env s.doubledSize with
      | mk message s' =>
        rw [hset] at hresized
        cases message with
        | some message => exact hresized
        | none =>
          have hresized : Uploaded s' := hresized
          obtain ⟨hroom, hsize⟩ := setBufferSize_grown hs (doubledSize_eq hs) hset
          exact .put hresized (by rw [hlength, hsize]) hroom hroom
            fun sprite hsprite hne => by omega
    next hfull =>
      exact hs.put (hlength _) (not_le.mp hfull) (not_le.mp hfull)
        fun sprite hsprite hne => by omega
  · exact hs.put (hlength _) (by omega) hs.next_le fun sprite hsprite _ => hsprite

variable {Q : Type} {sprites : Sprites Q}

/-- Whether a call is one that makes room for another sprite. -/
def SpriteBatch.Grows (s : SpriteBatch) (index : Int) : Prop := index = -1 ∧ s.size ≤ s.next

theorem Uploaded.addLayer (hs : Uploaded s) {layer : Int} {q : Q} {index : Int}
    (hkept : s.Grows index → env.Kept s s.doubledSize) :
    Uploaded (s.addLayer sprites env layer q index).2 := by
  rw [SpriteBatch.addLayer]
  by_cases harray : s.texture.array = false
  · rw [if_pos harray]
    exact hs
  by_cases hindex : index < -1 ∨ s.size ≤ index
  · rw [if_neg harray, if_pos hindex]
    exact hs
  by_cases hlayer : layer < 0 ∨ s.texture.layerCount ≤ layer
  · rw [if_neg harray, if_neg hindex, if_pos hlayer]
    exact hs
  rw [if_neg harray, if_neg hindex, if_neg hlayer]
  refine hs.place (fun color => ?_) (by omega) fun hnew hfull => hkept ⟨hnew, hfull⟩
  rw [sprites.layered_length, spriteSize, vertexStride, if_pos ((Bool.not_eq_false _).mp harray)]

theorem Uploaded.add (hs : Uploaded s) {q : Q} {index : Int}
    (hkept : s.Grows index → env.Kept s s.doubledSize) :
    Uploaded (s.add sprites env q index).2 := by
  rw [SpriteBatch.add]
  by_cases harray : s.texture.array = true
  · rw [if_pos harray]
    exact hs.addLayer hkept
  by_cases hindex : index < -1 ∨ s.size ≤ index
  · rw [if_neg harray, if_pos hindex]
    exact hs
  rw [if_neg harray, if_neg hindex]
  refine hs.place (fun color => ?_) (by omega) fun hnew hfull => hkept ⟨hnew, hfull⟩
  rw [sprites.flat_length, spriteSize, vertexStride, if_neg harray]

theorem Uploaded.draw (hs : Uploaded s) (invalid : Option String) :
    Uploaded (s.draw invalid).2 := by
  rw [SpriteBatch.draw.eq_def]
  split
  · exact hs
  cases invalid with
  | some message => exact hs
  | none =>
    dsimp only
    split
    · exact hs.flush
    · exact hs.flush

theorem attachAttribute_spec {name : String} {buffer : VertexBuffer}
    (h : s.attachAttribute name buffer = .ok s') :
    ∃ attributes, s' = { s with attachedAttributes := attributes } := by
  rw [attachAttribute] at h
  split_ifs at h
  split at h
  · cases h
  · cases h
    exact ⟨_, rfl⟩

/-- A call cuts off no modified sprite, and keeps the old vertices where they are
when it finds no new buffer. -/
def SpriteBatchOp.Kept (s : SpriteBatch) : SpriteBatchOp Q → Prop
  | .add env _ index => s.Grows index → env.Kept s s.doubledSize
  | .addLayer env _ _ index => s.Grows index → env.Kept s s.doubledSize
  | .setBufferSize env newsize => env.Kept s newsize.toInt
  | _ => True

/-- **Any call** keeps the invariant. -/
theorem spriteBatchStep_uploaded {op : SpriteBatchOp Q} (hs : Uploaded s) (hkept : op.Kept s)
    (h : spriteBatchStep sprites s op = some s') : Uploaded s' := by
  cases op with
  | add env q index =>
    cases h
    exact hs.add hkept
  | addLayer env layer q index =>
    cases h
    exact hs.addLayer hkept
  | clear =>
    cases h
    exact { hs with next_le := Nat.zero_le _, agrees := nofun }
  | setBufferSize env newsize =>
    cases h
    exact hs.setBufferSize newsize.toInt_lt hkept
  | attachAttribute name buffer =>
    rw [spriteBatchStep] at h
    cases hattach : s.attachAttribute name buffer with
    | ok s₁ =>
      rw [hattach] at h
      cases h
      obtain ⟨attributes, rfl⟩ := attachAttribute_spec hattach
      exact { hs with }
    | error message =>
      rw [hattach] at h
      cases h
      exact hs
  | setColor color =>
    cases h
    exact { hs with }
  | flush =>
    cases h
    exact hs.flush
  | draw invalid =>
    cases h
    exact hs.draw invalid

theorem new_uploaded {texture : Option BatchTexture} {size : Int} {usage : BufferDataUsage}
    {memory : Bool} {newBuffer : Option String} {junk : Nat → UInt8} (hsize : size < 2 ^ 31)
    (husage : usage ≠ .readback)
    (h : SpriteBatch.new texture size usage memory newBuffer junk = .ok s) : Uploaded s := by
  rw [SpriteBatch.new.eq_def] at h
  split at h
  · cases h
  cases texture with
  | none => cases h
  | some texture =>
    cases memory with
    | false => cases h
    | true =>
      cases newBuffer with
      | some message => cases h
      | none =>
        cases h
        refine ⟨?_, ?_, Nat.zero_le _, ?_, ?_, husage, .inl rfl, nofun⟩
        · show 0 < size.toNat
          omega
        · show size.toNat < 2 ^ 31
          omega
        · exact le_of_eq (Nat.mul_comm ..)
        · exact Nat.mul_comm ..

/-- **Uploads of a sprite batch**, in the runs whose calls keep what is modified:
the modified sprites are there, an upload reads and writes what is there, and
after it every sprite is in the buffer as it is in memory. -/
theorem spriteBatch_uploads {s : SpriteBatch}
    (h : ((spriteBatches sprites).restrict SpriteBatchOp.Kept).Reachable s) :
    (s.modifiedSprites.isValid = true → s.modifiedSprites.last < s.size) ∧
    (∀ offset n, s.upload = some (offset, n) →
      offset + n ≤ s.vertexData.size ∧ offset + n ≤ s.arrayBuf.size) ∧
    ∀ sprite < s.next, s.flush.Agrees sprite := by
  have hs : Uploaded s := by
    refine h.invariant_restrict ?_ fun s op s' hs hkept hstep => spriteBatchStep_uploaded hs hkept hstep
    rintro s ⟨texture, size, usage, memory, newBuffer, junk, husage, hnew⟩
    exact new_uploaded size.toInt_lt husage hnew
  refine ⟨?_, ?_, fun sprite hsprite => hs.flush_agrees hsprite⟩
  · intro hvalid
    rcases hs.modified with hnone | ⟨-, hlast⟩
    · rw [hnone] at hvalid
      cases hvalid
    · exact hlast
  · intro offset n hupload
    exact (hs.upload_le hupload).2

/-! ### A batch of two sprites -/

/-- Sprites whose vertices are one byte over and over. -/
def byteSprites : Sprites UInt8 where
  layer _ := 0
  flat q _ := List.replicate 80 q
  layered _ q _ := List.replicate 96 q
  flat_length _ _ := List.length_replicate
  layered_length _ _ _ := List.length_replicate

/-- Nothing fails. -/
def plainResize : Resize := ⟨.moved, fun _ => 0, none, fun _ => 0⟩

def smallBatch : SpriteBatch :=
  ⟨⟨false, 1⟩, 2, 0, 0xFFFFFFFF, ⟨160, fun _ => 0⟩, ⟨160, .dynamic, fun _ => 0⟩, .invalid, []⟩

theorem smallBatch_init : (spriteBatches byteSprites).init smallBatch :=
  ⟨some ⟨false, 1⟩, 2, .dynamic, true, none, fun _ => 0, by decide, rfl⟩

def addedBatch : SpriteBatch := (smallBatch.add byteSprites plainResize 7 (-1)).2

theorem spriteBatch_uploads_added : addedBatch.modifiedSprites.last < addedBatch.size ∧
    0 + 80 ≤ addedBatch.vertexData.size ∧ 0 + 80 ≤ addedBatch.arrayBuf.size ∧
    addedBatch.flush.Agrees 0 := by
  have hkept : (SpriteBatchOp.add plainResize (7 : UInt8) (-1)).Kept smallBatch :=
    fun hgrows => absurd hgrows.2 (by decide)
  have hreach : ((spriteBatches byteSprites).restrict SpriteBatchOp.Kept).Reachable addedBatch :=
    .step (.init smallBatch_init) ⟨hkept, rfl⟩
  obtain ⟨hlast, hupload, hagrees⟩ := spriteBatch_uploads hreach
  have hinside := hupload 0 80 (by decide +kernel)
  exact ⟨hlast (by decide +kernel), hinside.1, hinside.2, hagrees 0 (by decide +kernel)⟩

/-- Two sprites were added, the batch was cut to one sprite, and that was set. -/
def cutBatch : SpriteBatch :=
  (((addedBatch.add byteSprites plainResize 7 (-1)).2.setBufferSize plainResize 1).2.add
    byteSprites plainResize 9 0).2

/-- The range still has the sprite that was cut off, and no upload takes place. -/
theorem cutBatch_stale : (spriteBatches byteSprites).Reachable cutBatch ∧
    cutBatch.modifiedSprites = ⟨0, 1⟩ ∧ cutBatch.size = 1 ∧ cutBatch.next = 1 ∧
    ¬ cutBatch.flush.Agrees 0 := by
  refine ⟨?_, by decide +kernel, by decide +kernel, by decide +kernel, ?_⟩
  · have hadded : (spriteBatches byteSprites).Reachable addedBatch :=
      .step (e := .add plainResize 7 (-1)) (.init smallBatch_init) rfl
    exact .step (e := .add plainResize 9 0)
      (.step (e := .setBufferSize plainResize 1) (.step (e := .add plainResize 7 (-1)) hadded rfl) rfl)
      rfl
  · intro hagrees
    have hfirst := hagrees 0 (by decide +kernel)
    revert hfirst
    decide +kernel

end Lhatove.Graphics
