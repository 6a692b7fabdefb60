import Lhatove.Image.BlockFormats

/-!
# ASTC files

`ASTCHandler::parseCompressed`: a header of 16 bytes, and the blocks of one picture.

- `parse_size`: the slice of a file with one layer;
- `parsesSafely_iff`: which files are parsed without a division by zero and with all
  bytes of their blocks.
-/

namespace Lhatove.Image.ASTC

open KTX (addSize)

/-- `ASTC_IDENTIFIER` -/
def identifier : Nat := 0x5CA1AB13

/-- `sizeof(ASTCHeader)` -/
def headerSize : Nat := 16

/-- `ASTCHeader`, but for its identifier. -/
structure Header where
  blockdimX : Nat
  blockdimY : Nat
  blockdimZ : Nat
  sizeX : Nat
  sizeY : Nat
  sizeZ : Nat

def convertFormat (blockX blockY blockZ : Nat) : PixelFormat :=
  if 1 < blockZ then .unknown
  else
    match blockX, blockY with
    | 4, 4 => .astc4x4Unorm
    | 5, 4 => .astc5x4Unorm
    | 5, 5 => .astc5x5Unorm
    | 6, 5 => .astc6x5Unorm
    | 6, 6 => .astc6x6Unorm
    | 8, 5 => .astc8x5Unorm
    | 8, 6 => .astc8x6Unorm
    | 8, 8 => .astc8x8Unorm
    | 10, 5 => .astc10x5Unorm
    | 10, 6 => .astc10x6Unorm
    | 10, 8 => .astc10x8Unorm
    | 10, 10 => .astc10x10Unorm
    | 12, 10 => .astc12x10Unorm
    | 12, 12 => .astc12x12Unorm
    | _, _ => .unknown

/-- What `parseCompressed` answers: the only slice, and the format. -/
structure Parsed where
  memory : List Byte
  width : Nat
  height : Nat
  size : Nat
  format : PixelFormat

section Parse

variable (file : List Byte)

/-- A byte of the header. -/
def byteAt (offset : Nat) : Nat := (file.getD offset 0).toNat

/-- A size of three bytes. -/
def sizeAt (offset : Nat) : Nat :=
  byteAt file offset + byteAt file (offset + 1) * 2 ^ 8 + byteAt file (offset + 2) * 2 ^ 16

def canParseCompressed : Bool :=
  if file.length ≤ headerSize then false
  else
    byteAt file 0 + byteAt file 1 * 2 ^ 8 + byteAt file 2 * 2 ^ 16 + byteAt file 3 * 2 ^ 24 =
      identifier

def readHeader : Header where
  blockdimX := byteAt file 4
  blockdimY := byteAt file 5
  blockdimZ := byteAt file 6
  sizeX := sizeAt file 7
  sizeY := sizeAt file 10
  sizeZ := sizeAt file 13

/-- `blocksX`, `blocksY` and `blocksZ`, in 32 bits. -/
def blocks (size blockdim : Nat) : Nat := (size + blockdim + (2 ^ 32 - 1)) % 2 ^ 32 / blockdim

def Header.totalsize (header : Header) : Nat :=
  blocks header.sizeX header.blockdimX * blocks header.sizeY header.blockdimY *
    blocks header.sizeZ header.blockdimZ * 16 % 2 ^ 64

/-- `ASTCHandler::parseCompressed`. A division by zero has no answer. -/
def parseCompressed (room : Nat → Bool) : Option (Except String Parsed) :=
  if !canParseCompressed file then
    some (.error "Could not decode compressed data (not an .astc file?)")
  else
    let header := readHeader file
    let cformat := convertFormat header.blockdimX header.blockdimY header.blockdimZ
    if cformat = .unknown then
      some (.error ("Could not parse .astc file: unsupported ASTC format " ++
        toString header.blockdimX ++ "x" ++ toString header.blockdimY ++ "x" ++
        toString header.blockdimZ ++ "."))
    else if header.blockdimZ = 0 then none
    else if file.length < addSize header.totalsize headerSize then
      some (.error "Could not parse .astc file: file is too small.")
    else if header.totalsize = 0 then some (.error "ByteData size must be greater than 0.")
    else if !room header.totalsize then some (.error "Out of memory.")
    else
      some (.ok
        { memory := (file.drop headerSize).take header.totalsize
          width := header.sizeX
          height := header.sizeY
          size := header.totalsize
          format := cformat })

end Parse

/-! ## The size of the slice -/

/-- **The blocks of a format** are those its name says. -/
theorem convertFormat_block {blockX blockY blockZ : Nat}
    (h : convertFormat blockX blockY blockZ ≠ .unknown) :
    (convertFormat blockX blockY blockZ).block = ⟨blockX, blockY, 16⟩ := by
  unfold convertFormat at h ⊢
  split at h
  · exact absurd rfl h
  · next hflat =>
    rw [if_neg hflat]
    split at h <;> first
      | rfl
      | exact absurd rfl h

variable {room : Nat → Bool} {p : Parsed}

theorem parse_ok {file : List Byte} (h : parseCompressed file room = some (.ok p)) :
    let header := readHeader file
    let cformat := convertFormat header.blockdimX header.blockdimY header.blockdimZ
    cformat ≠ .unknown ∧ header.blockdimZ ≠ 0 ∧
      p = ⟨(file.drop headerSize).take header.totalsize, header.sizeX, header.sizeY,
        header.totalsize, cformat⟩ := by
  unfold parseCompressed at h
  split at h
  · cases h
  · dsimp only at h
    split at h
    · cases h
    · next hformat =>
      split at h
      · cases h
      · next hzero =>
        refine ⟨hformat, hzero, ?_⟩
        split_ifs at h <;> cases h
        rfl

theorem sizeAt_lt (file : List Byte) (offset : Nat) : sizeAt file offset < 2 ^ 24 := by
  rw [sizeAt, byteAt, byteAt, byteAt]
  omega

theorem blocks_eq {size blockdim : Nat} (hsize : size < 2 ^ 24) (hpos : 0 < blockdim)
    (hblockdim : blockdim < 2 ^ 8) : blocks size blockdim = BlockFormat.blocks size blockdim := by
  rw [blocks, BlockFormat.blocks,
    show (size + blockdim + (2 ^ 32 - 1)) % 2 ^ 32 = size + blockdim - 1 by omega]

/-- **The slice of a file with one layer** has the bytes of its blocks. -/
theorem parse_size {file : List Byte} (h : parseCompressed file room = some (.ok p))
    (hlayer : (readHeader file).sizeZ = 1) :
    p.format ≠ .unknown ∧ p.size = p.format.block.sliceBytes p.width p.height := by
  obtain ⟨hformat, hdim, rfl⟩ := parse_ok h
  refine ⟨hformat, ?_⟩
  have hblock := convertFormat_block hformat
  have husual := BlockFormat.usual hformat
  have hw := husual.width
  have hh := husual.height
  rw [hblock] at hw hh ⊢
  dsimp only at hw hh
  have hflat : (readHeader file).blockdimZ = 1 := by
    have : ¬ 1 < (readHeader file).blockdimZ := by
      intro hdeep
      exact hformat (if_pos hdeep)
    omega
  have hx : (readHeader file).sizeX < 2 ^ 24 := sizeAt_lt file 7
  have hy : (readHeader file).sizeY < 2 ^ 24 := sizeAt_lt file 10
  rw [Header.totalsize, hlayer, hflat, blocks_eq hx (by omega) (by omega),
    blocks_eq hy (by omega) (by omega), show blocks 1 1 = 1 from rfl, Nat.mul_one]
  refine Nat.mod_eq_of_lt ?_
  have hcolumns : BlockFormat.blocks (readHeader file).sizeX (readHeader file).blockdimX ≤ 2 ^ 24 :=
    BlockFormat.blocks_le (by omega) (hx.le.trans (Nat.le_mul_of_pos_right _ (by omega)))
  have hrows : BlockFormat.blocks (readHeader file).sizeY (readHeader file).blockdimY ≤ 2 ^ 24 :=
    BlockFormat.blocks_le (by omega) (hy.le.trans (Nat.le_mul_of_pos_right _ (by omega)))
  have := Nat.mul_le_mul hcolumns hrows
  omega

/-! ## What a parse may do -/

/-- The bytes of all blocks, exactly. -/
def Header.bytes (header : Header) : Nat :=
  BlockFormat.blocks header.sizeX header.blockdimX *
    BlockFormat.blocks header.sizeY header.blockdimY *
    BlockFormat.blocks header.sizeZ header.blockdimZ * 16

/-- A parse throws, or answers one slice with the bytes of all blocks, which lies inside
the file. -/
def ParsesSafely (file : List Byte) (room : Nat → Bool) : Prop :=
  parseCompressed file room ≠ none ∧
    ∀ p, parseCompressed file room = some (.ok p) →
      (readHeader file).bytes < 2 ^ 64 ∧ p.size = (readHeader file).bytes ∧
        headerSize + p.size ≤ file.length ∧
        p.memory = (file.drop headerSize).take p.size ∧ p.memory.length = p.size

/-- The header is one that `parseCompressed` goes on with. -/
def Accepted (file : List Byte) : Prop :=
  canParseCompressed file = true ∧
    convertFormat (readHeader file).blockdimX (readHeader file).blockdimY
      (readHeader file).blockdimZ ≠ .unknown

/-- A size for which `parseCompressed` throws. -/
def Refused (file : List Byte) (room : Nat → Bool) (size : Nat) : Prop :=
  file.length < addSize size headerSize ∨ size = 0 ∨ room size = false

/-- What has to hold of an accepted file: blocks have a depth, and their bytes are in the
file, unless what is left of their number in 64 bits is refused. -/
def Sound (file : List Byte) (room : Nat → Bool) : Prop :=
  (readHeader file).blockdimZ ≠ 0 ∧
    (((readHeader file).bytes < 2 ^ 64 ∧ headerSize + (readHeader file).bytes ≤ file.length) ∨
      Refused file room ((readHeader file).bytes % 2 ^ 64))

theorem Accepted.usual {file : List Byte} (h : Accepted file) :
    0 < (readHeader file).blockdimX ∧ (readHeader file).blockdimX < 2 ^ 8 ∧
      0 < (readHeader file).blockdimY ∧ (readHeader file).blockdimY < 2 ^ 8 ∧
      (readHeader file).blockdimZ ≤ 1 := by
  obtain ⟨-, hformat⟩ := h
  have husual := BlockFormat.usual hformat
  have hw := husual.width
  have hh := husual.height
  rw [convertFormat_block hformat] at hw hh
  dsimp only at hw hh
  refine ⟨by omega, by omega, by omega, by omega, ?_⟩
  by_contra hdeep
  exact hformat (if_pos (by omega))

/-- The sizes of three dimensions are counted without going round; their product is not. -/
theorem Accepted.totalsize {file : List Byte} (h : Accepted file)
    (hdepth : (readHeader file).blockdimZ ≠ 0) :
    (readHeader file).totalsize = (readHeader file).bytes % 2 ^ 64 := by
  obtain ⟨hx, hx', hy, hy', hz⟩ := h.usual
  have hwidth : (readHeader file).sizeX < 2 ^ 24 := sizeAt_lt file 7
  have hheight : (readHeader file).sizeY < 2 ^ 24 := sizeAt_lt file 10
  have hlayers : (readHeader file).sizeZ < 2 ^ 24 := sizeAt_lt file 13
  rw [Header.totalsize, Header.bytes, blocks_eq hwidth hx hx', blocks_eq hheight hy hy',
    blocks_eq hlayers (by omega) (by omega)]

theorem Accepted.parse {file : List Byte} (h : Accepted file) (room : Nat → Bool) :
    (readHeader file).blockdimZ = 0 ∧ parseCompressed file room = none ∨
    (readHeader file).blockdimZ ≠ 0 ∧ Refused file room (readHeader file).totalsize ∧
      (∃ message, parseCompressed file room = some (.error message)) ∨
    (readHeader file).blockdimZ ≠ 0 ∧ ¬ Refused file room (readHeader file).totalsize ∧
      ∃ p, parseCompressed file room = some (.ok p) := by
  obtain ⟨hcan, hformat⟩ := h
  rw [parseCompressed, hcan, Bool.not_true, if_neg (by decide)]
  rw [if_neg hformat]
  by_cases hdepth : (readHeader file).blockdimZ = 0
  · exact .inl ⟨hdepth, if_pos hdepth⟩
  refine .inr ?_
  rw [if_neg hdepth]
  by_cases hshort : file.length < addSize (readHeader file).totalsize headerSize
  · exact .inl ⟨hdepth, .inl hshort, _, if_pos hshort⟩
  rw [if_neg hshort]
  by_cases hzero : (readHeader file).totalsize = 0
  · exact .inl ⟨hdepth, .inr (.inl hzero), _, if_pos hzero⟩
  rw [if_neg hzero]
  by_cases hroom : room (readHeader file).totalsize = true
  · rw [hroom, Bool.not_true, if_neg (by decide)]
    refine .inr ⟨hdepth, ?_, _, rfl⟩
    rintro (h | h | h)
    · exact hshort h
    · exact hzero h
    · rw [hroom] at h
      cases h
  · rw [(Bool.not_eq_true _).mp hroom]
    exact .inl ⟨hdepth, .inr (.inr ((Bool.not_eq_true _).mp hroom)), _, rfl⟩

theorem parse_of_not_accepted {file : List Byte} (h : ¬ Accepted file) (room : Nat → Bool) :
    ∃ message, parseCompressed file room = some (.error message) := by
  rw [parseCompressed]
  by_cases hcan : canParseCompressed file = true
  · have hformat := not_not.mp fun hformat => h ⟨hcan, hformat⟩
    rw [hcan, Bool.not_true, if_neg (by decide)]
    exact ⟨_, if_pos hformat⟩
  · rw [(Bool.not_eq_true _).mp hcan]
    exact ⟨_, rfl⟩

theorem parsesSafely_of_error {file : List Byte} {message : String}
    (h : parseCompressed file room = some (.error message)) : ParsesSafely file room := by
  rw [ParsesSafely, h]
  exact ⟨nofun, nofun⟩

/-- **Files are parsed safely** but for accepted ones whose blocks have no depth, and those
whose blocks are more than a `size_t` counts and what is left of their number is not
refused. -/
theorem parsesSafely_iff (file : List Byte) (room : Nat → Bool) :
    ParsesSafely file room ↔ (Accepted file → Sound file room) := by
  by_cases haccepted : Accepted file
  swap
  · obtain ⟨message, hparse⟩ := parse_of_not_accepted haccepted room
    exact iff_of_true (parsesSafely_of_error hparse) fun h => absurd h haccepted
  rw [forall_prop_of_true haccepted]
  rcases haccepted.parse room with
    ⟨hdepth, hparse⟩ | ⟨hdepth, hrefused, message, hparse⟩ | ⟨hdepth, hrefused, p, hparse⟩
  · exact iff_of_false (fun h => h.1 hparse) fun h => h.1 hdepth
  · rw [haccepted.totalsize hdepth] at hrefused
    exact iff_of_true (parsesSafely_of_error hparse) ⟨hdepth, .inr hrefused⟩
  · have htotal := haccepted.totalsize hdepth
    obtain ⟨-, -, rfl⟩ := parse_ok hparse
    rw [htotal] at hrefused
    constructor
    · rintro ⟨-, hok⟩
      obtain ⟨hlt, hsize, hinside, -, -⟩ := hok _ hparse
      exact ⟨hdepth, .inl ⟨hlt, hsize ▸ hinside⟩⟩
    · rintro ⟨-, ⟨hlt, hinside⟩ | hrefused'⟩
      · refine ⟨by rw [hparse]; nofun, ?_⟩
        intro p' hp'
        obtain rfl := Except.ok.inj (Option.some.inj (hparse.symm.trans hp'))
        have hsize : (readHeader file).totalsize = (readHeader file).bytes :=
          htotal.trans (Nat.mod_eq_of_lt hlt)
        refine ⟨hlt, hsize, by rw [hsize]; exact hinside, rfl, ?_⟩
        dsimp only
        rw [List.length_take, List.length_drop, hsize]
        omega
      · exact absurd hrefused' hrefused

/-- A file of blocks without depth, and one of 4339028 times 4966948 times 5135573 pixels. -/
theorem not_always_parsed_safely :
    ¬ ParsesSafely ([0x13, 0xAB, 0xA1, 0x5C, 4, 4, 0, 1, 0, 0, 1, 0, 0, 1, 0, 0] ++
        List.replicate 16 0) (fun _ => true) ∧
      ¬ ParsesSafely ([0x13, 0xAB, 0xA1, 0x5C, 4, 4, 1, 0x54, 0x35, 0x42, 0x24, 0xCA, 0x4B,
        0xD5, 0x5C, 0x4E] ++ List.replicate 16 0) (fun _ => true) := by
  constructor
  · rintro ⟨hsome, -⟩
    exact hsome (by decide)
  · rintro ⟨-, hok⟩
    have haccepted : Accepted ([0x13, 0xAB, 0xA1, 0x5C, 4, 4, 1, 0x54, 0x35, 0x42, 0x24, 0xCA,
        0x4B, 0xD5, 0x5C, 0x4E] ++ .replicate 16 0) := ⟨by decide, by decide⟩
    rcases haccepted.parse fun _ => true with ⟨hdepth, -⟩ | ⟨-, hrefused, -⟩ | ⟨-, -, p, hparse⟩
    · exact absurd hdepth (by decide)
    · rcases hrefused with hshort | hzero | hroom
      · exact absurd hshort (by decide +kernel)
      · exact absurd hzero (by decide +kernel)
      · cases hroom
    · exact absurd (hok p hparse).1 (by decide +kernel)

end Lhatove.Image.ASTC
