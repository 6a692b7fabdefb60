import Lhatove.Lib.Tables

/-!
# Glyph textures of a font

`love::graphics::Font`, as far as its glyphs go: rows of glyphs in a texture, which is
replaced by one of twice the size, or followed by another one of the greatest size.

- Rasterizers, the textures' creation and the order of the glyph table are outside: any are
  admitted. A glyph's index is not negative.
- `addGlyph` and `createTexture` call each other; `fuel` bounds how deep. `addGlyph_returns`
  says how much is enough.
- Coordinates of vertices are exact. Counts of textures and of vertices are not bounded.
-/

namespace Lhatove.Graphics

/-! ## Sizes -/

/-- `Font::TextureSize`: a square, or two of them beside each other. -/
@[ext]
structure TextureSize where
  width : Nat
  height : Nat
  height_pos : 0 < height
  shape : width = height ∨ width = 2 * height
  deriving DecidableEq

namespace TextureSize

/-- The next size: {128, 128} -> {256, 128} -> {256, 256} -> {512, 256} -> etc. -/
def doubled (size : TextureSize) : TextureSize :=
  if h : size.width = size.height then
    ⟨size.width * 2, size.height, size.height_pos, .inr (by omega)⟩
  else
    ⟨size.width, size.height * 2, Nat.mul_pos size.height_pos Nat.two_pos, .inl (by
      have := size.shape.resolve_left h
      omega)⟩

/-- `Font::getNextTextureSize`, of the greatest size of a texture. -/
def next (maxsize : Nat) (size : TextureSize) : TextureSize :=
  if size.width * 2 ≤ min 8192 maxsize ∨ size.height * 2 ≤ min 4096 maxsize then size.doubled
  else size

/-- `nextsize.width > size.width || nextsize.height > size.height` -/
def Grows (maxsize : Nat) (size : TextureSize) : Prop :=
  size.width < (size.next maxsize).width ∨ size.height < (size.next maxsize).height

instance (maxsize : Nat) (size : TextureSize) : Decidable (size.Grows maxsize) :=
  inferInstanceAs (Decidable (_ ∨ _))

/-- It is less than 2¹⁴ for every size that was grown to. -/
def extent (size : TextureSize) : Nat := size.width + size.height

theorem extent_doubled_le (maxsize : Nat) (size : TextureSize)
    (h : size.width * 2 ≤ min 8192 maxsize ∨ size.height * 2 ≤ min 4096 maxsize) :
    size.extent < size.doubled.extent ∧ size.doubled.extent < 2 ^ 14 := by
  have hpos := size.height_pos
  have hshape := size.shape
  rw [extent, extent, doubled]
  split_ifs with hsquare
  all_goals
    dsimp only
    omega

theorem Grows.extent_lt {maxsize : Nat} {size : TextureSize} (h : size.Grows maxsize) :
    size.extent < (size.next maxsize).extent ∧ (size.next maxsize).extent < 2 ^ 14 := by
  rw [Grows, next] at h
  rw [next]
  split_ifs at h ⊢ with hmax
  · exact extent_doubled_le maxsize size hmax
  · omega

end TextureSize

/-! ## Glyphs -/

/-- `TextShaper::GlyphIndex` -/
structure GlyphIndex where
  index : Nat
  rasterizerIndex : Nat
  deriving DecidableEq

/-- `packGlyphIndex` -/
def GlyphIndex.pack (g : GlyphIndex) : Nat := g.rasterizerIndex <<< 32 ||| g.index

/-- `unpackGlyphIndex` -/
def GlyphIndex.unpack (packedindex : Nat) : GlyphIndex :=
  ⟨packedindex &&& 0xFFFFFFFF, packedindex >>> 32⟩

/-- `PixelFormat`, of glyphs: `PIXELFORMAT_LA8_UNORM`, `PIXELFORMAT_RGBA8_UNORM` or another. -/
inductive GlyphFormat
  | la8
  | rgba8
  | other (format : Nat)
  deriving DecidableEq

/-- `GlyphData`, with the scale of its rasterizer. -/
structure GlyphData where
  width : Nat
  height : Nat
  format : GlyphFormat
  bearingX : Int
  bearingY : Int
  dpiscale : ℚ

/-- `XYf_STus_RGBAub`, without the color. -/
@[ext]
structure GlyphPlace where
  x : ℚ
  y : ℚ
  s : Nat
  t : Nat
  deriving DecidableEq

/-- `Font::Glyph`; its texture is a pointer. -/
structure Glyph where
  texture : Option Nat
  vertices : Fin 4 → GlyphPlace

/-- `Rect`, in a texture -/
structure TexelRect where
  x : Nat
  y : Nat
  w : Nat
  h : Nat
  deriving DecidableEq

/-- A texture of glyphs, and what was uploaded since it was cleared. -/
structure GlyphTexture where
  address : Nat
  size : TextureSize
  uploads : List TexelRect

/-- A texture is uploaded to; what is not inside it is an error of OpenGL, and nothing is
uploaded. -/
def GlyphTexture.upload (texture : GlyphTexture) (rect : TexelRect) :
    GlyphTexture :=
  if rect.x + rect.w ≤ texture.size.width ∧ rect.y + rect.h ≤ texture.size.height then
    { texture with uploads := texture.uploads ++ [rect] }
  else texture

/-- What a font's glyphs depend on. -/
structure FontEnv where
  /-- `LIMIT_TEXTURE_SIZE` -/
  maxTextureSize : Nat
  /-- The address of the texture that is created next, if it is. -/
  newTexture : Nat → TextureSize → Except String Nat
  /-- `getRasterizerGlyphData` -/
  glyphData : GlyphIndex → Except String GlyphData
  /-- The order of an `unordered_map`. -/
  order : List GlyphIndex → List GlyphIndex
  order_perm : ∀ l, (order l).Perm l

/-- `Font`, as far as its glyphs go. -/
structure Font where
  textureSize : TextureSize
  textures : List GlyphTexture
  glyphs : Table GlyphIndex Glyph
  pixelFormat : GlyphFormat
  textureX : Nat
  textureY : Nat
  rowHeight : Nat
  textureCacheID : BitVec 32
  /-- How many textures were asked for. -/
  created : Nat

/-- What ends a call early. -/
inductive FontError
  | exception (message : String)
  /-- `textures.back()` of no textures -/
  | undefined
  deriving DecidableEq

/-- What a call leaves: `none` if the fuel is used up. -/
abbrev FontResult (α : Type) := Option (Except FontError α × Font)

namespace Font

/-- `TEXTURE_PADDING` -/
def padding : Nat := 2

def normToUint16 (n : ℚ) : Nat := ⌊n * 65535⌋₊ % 2 ^ 16

/-- The corners of a glyph's quad, extruded by 1 pixel. -/
def corners (size : TextureSize) (tX tY : ℚ) (w h : Nat) : Fin 4 → GlyphPlace :=
  ![⟨-1, -1, normToUint16 ((tX - 1) / size.width), normToUint16 ((tY - 1) / size.height)⟩,
    ⟨-1, h + 1, normToUint16 ((tX - 1) / size.width), normToUint16 ((tY + h + 1) / size.height)⟩,
    ⟨w + 1, -1, normToUint16 ((tX + w + 1) / size.width), normToUint16 ((tY - 1) / size.height)⟩,
    ⟨w + 1, h + 1, normToUint16 ((tX + w + 1) / size.width),
      normToUint16 ((tY + h + 1) / size.height)⟩]

/-- A corner with the bearing and the scale of its glyph. -/
def bear (gd : GlyphData) (v : GlyphPlace) : GlyphPlace :=
  { v with x := (v.x + gd.bearingX) / gd.dpiscale, y := (v.y - gd.bearingY) / gd.dpiscale }

/-- Another row. -/
def newRow (font : Font) : Font :=
  { font with
    textureX := padding
    textureY := font.textureY + font.rowHeight
    rowHeight := padding }

/-- A texture is put behind the others, and is filled from its corner. -/
def startTexture (font : Font) (textures : List GlyphTexture) (address : Nat)
    (size : TextureSize) : Font :=
  { font with
    textureSize := size
    textures := textures ++ [⟨address, size, []⟩]
    textureX := padding
    textureY := padding
    rowHeight := padding
    created := font.created + 1 }

/-- The part of `addGlyph` behind the search for space. -/
def place (g : GlyphIndex) (gd : GlyphData) (font : Font) : Except FontError Glyph × Font :=
  if 0 < gd.width ∧ 0 < gd.height then
    match font.textures.getLast? with
    | none => (.error .undefined, font)
    | some texture =>
      if font.pixelFormat ≠ gd.format ∧ ¬(font.pixelFormat = .rgba8 ∧ gd.format = .la8) then
        (.error (.exception
          "Cannot upload font glyphs to texture atlas: unexpected format conversion."), font)
      else
        let rect : TexelRect := ⟨font.textureX, font.textureY, gd.width, gd.height⟩
        let glyph : Glyph := ⟨some texture.address,
          bear gd ∘ corners font.textureSize font.textureX font.textureY gd.width gd.height⟩
        (.ok glyph, { font with
          textures := font.textures.dropLast ++ [texture.upload rect]
          textureX := font.textureX + (gd.width + padding)
          rowHeight := max font.rowHeight (gd.height + padding)
          glyphs := font.glyphs.insert g glyph })
  else
    let glyph : Glyph := ⟨none, fun _ => ⟨0, 0, 0, 0⟩⟩
    (.ok glyph, { font with glyphs := font.glyphs.insert g glyph })

/-- The loop that adds glyphs again; the first exception ends it. -/
def addAll (addGlyph : GlyphIndex → Font → FontResult Glyph) :
    List GlyphIndex → Font → FontResult Unit
  | [], font => some (.ok (), font)
  | g :: glyphstoadd, font =>
    match addGlyph g font with
    | none => none
    | some (.error e, font) => some (.error e, font)
    | some (.ok _, font) => addAll addGlyph glyphstoadd font

/-- `Font::createTexture`: a greater texture instead of the last one, with all glyphs added
again, or a further one. -/
def createTexture (env : FontEnv) (addGlyph : GlyphIndex → Font → FontResult Glyph)
    (font : Font) : FontResult Unit :=
  if font.textureSize.Grows env.maxTextureSize ∧ font.textures ≠ [] then
    let size := font.textureSize.next env.maxTextureSize
    let textures := font.textures.dropLast
    match env.newTexture font.created size with
    | .error message =>
      some (.error (.exception message),
        { font with textures := textures, created := font.created + 1 })
    | .ok address =>
      let glyphstoadd := env.order font.glyphs.keys
      addAll addGlyph glyphstoadd { font.startTexture textures address size with
        textureCacheID := font.textureCacheID + 1, glyphs := ∅ }
  else
    match env.newTexture font.created font.textureSize with
    | .error message =>
      some (.error (.exception message), { font with created := font.created + 1 })
    | .ok address => some (.ok (), font.startTexture font.textures address font.textureSize)

/-- `w + TEXTURE_PADDING * 2 < textureWidth && h + TEXTURE_PADDING * 2 < textureHeight` -/
def Fits (font : Font) (gd : GlyphData) : Prop :=
  gd.width + padding * 2 < font.textureSize.width ∧
    gd.height + padding * 2 < font.textureSize.height

instance (font : Font) (gd : GlyphData) : Decidable (font.Fits gd) :=
  inferInstanceAs (Decidable (_ ∧ _))

/-- A new row where the glyph is too wide for the rest of the current one. -/
def findRow (font : Font) (gd : GlyphData) : Font :=
  if font.textureSize.width < font.textureX + gd.width + padding then font.newRow else font

/-- `Font::addGlyph` -/
def addGlyph (env : FontEnv) : Nat → GlyphIndex → Font → FontResult Glyph
  | 0, _, _ => none
  | fuel + 1, g, font =>
    match env.glyphData g with
    | .error message => some (.error (.exception message), font)
    | .ok gd =>
      if font.Fits gd then
        let font := font.findRow gd
        if font.textureSize.height < font.textureY + gd.height + padding then
          match createTexture env (addGlyph env fuel) font with
          | none => none
          | some (.error e, font) => some (.error e, font)
          | some (.ok (), font) => addGlyph env fuel g font
        else some (font.place g gd)
      else some (font.place g gd)

/-- `Font::findGlyph` -/
def findGlyph (env : FontEnv) (fuel : Nat) (g : GlyphIndex) (font : Font) : FontResult Glyph :=
  match font.glyphs.lookup g with
  | some glyph => some (.ok glyph, font)
  | none => addGlyph env fuel g font

/-! ## What a call leaves -/

/-- How a font has grown: `n` times, with a new cache ID each time. -/
structure Grown (n : Nat) (font font' : Font) : Prop where
  extent : font.textureSize.extent + n ≤ font'.textureSize.extent
  bounded : n = 0 ∨ font'.textureSize.extent < 2 ^ 14
  same : n = 0 → font'.textureSize = font.textureSize
  id : font'.textureCacheID = font.textureCacheID + BitVec.ofNat 32 n

variable {n m : Nat} {font font' font'' : Font}

theorem Grown.refl (font : Font) : Grown 0 font font :=
  ⟨le_rfl, .inl rfl, fun _ => rfl, (BitVec.add_zero _).symm⟩

theorem Grown.trans (h : Grown n font font') (h' : Grown m font' font'') :
    Grown (n + m) font font'' := by
  constructor
  · have := h.extent
    have := h'.extent
    omega
  · rcases h'.bounded with hm | hlt
    · rw [h'.same hm]
      exact h.bounded.imp (fun hn => by omega) fun hlt => hlt
    · exact .inr hlt
  · intro hzero
    rw [h'.same (by omega), h.same (by omega)]
  · rw [h'.id, h.id, BitVec.add_assoc, ← BitVec.ofNat_add]

theorem Grown.id_eq_iff (h : Grown n font font') :
    font.textureCacheID = font'.textureCacheID ↔ n = 0 := by
  constructor
  · intro heq
    have hid := h.id
    have hbound : n < 2 ^ 32 := by
      have := h.extent
      rcases h.bounded with hzero | hlt
      · omega
      · omega
    bv_omega
  · intro hzero
    rw [h.id, hzero]
    exact (BitVec.add_zero _).symm

/-- The entries of a glyph table stay, but for one key. -/
def Keeps (g : GlyphIndex) (font font' : Font) : Prop :=
  ∀ g' ≠ g, font'.glyphs.lookup g' = font.glyphs.lookup g'

/-- What a call of `addGlyph` leaves, whatever it returns. -/
structure Added (g : GlyphIndex) (result : Except FontError Glyph) (font font' : Font) : Prop where
  grown : ∃ n, Grown n font font' ∧ (n = 0 → Keeps g font font')
  stored : ∀ glyph, result = .ok glyph → font'.glyphs.lookup g = some glyph

variable {g : GlyphIndex}

theorem Added.insert {glyph : Glyph} (hsize : font'.textureSize = font.textureSize)
    (hid : font'.textureCacheID = font.textureCacheID)
    (hglyphs : font'.glyphs = font.glyphs.insert g glyph) : Added g (.ok glyph) font font' := by
  refine ⟨⟨0, ⟨by rw [hsize]; exact le_rfl, .inl rfl, fun _ => hsize, ?_⟩, ?_⟩, ?_⟩
  · rw [hid]
    exact (BitVec.add_zero _).symm
  · intro _ g' hne
    rw [hglyphs]
    exact AList.lookup_insert_ne hne
  · intro glyph' h
    cases h
    rw [hglyphs]
    exact AList.lookup_insert _

theorem Added.error (g : GlyphIndex) (e : FontError) (font : Font) :
    Added g (.error e) font font :=
  ⟨⟨0, .refl font, fun _ _ _ => rfl⟩, fun _ h => by cases h⟩

theorem place_added (g : GlyphIndex) (gd : GlyphData) (font : Font) :
    Added g (font.place g gd).1 font (font.place g gd).2 := by
  unfold place
  split
  · cases font.textures.getLast? with
    | none => exact .error g _ font
    | some texture =>
      split_ifs
      · exact .error g _ font
      · exact .insert rfl rfl rfl
  · exact .insert rfl rfl rfl

theorem findRow_added {gd : GlyphData} {result : Except FontError Glyph}
    (h : Added g result (font.findRow gd) font') : Added g result font font' := by
  rw [findRow] at h
  split_ifs at h
  · obtain ⟨⟨n, hgrown, hkeeps⟩, hstored⟩ := h
    exact ⟨⟨n, ⟨hgrown.extent, hgrown.bounded, hgrown.same, hgrown.id⟩, hkeeps⟩, hstored⟩
  · exact h

variable {env : FontEnv} {add : GlyphIndex → Font → FontResult Glyph}

variable {gs : List GlyphIndex} {result : Except FontError Unit}

theorem addAll_grown
    (hadd : ∀ g font result font', add g font = some (result, font') → Added g result font font') :
    ∀ {font : Font}, addAll add gs font = some (result, font') → ∃ n, Grown n font font' := by
  induction gs with
  | nil =>
    intro font h
    cases h
    exact ⟨0, .refl _⟩
  | cons g gs ih =>
    intro font h
    rw [addAll] at h
    cases hfirst : add g font with
    | none => rw [hfirst] at h; cases h
    | some first =>
      obtain ⟨outcome, middle⟩ := first
      obtain ⟨n, hgrown, -⟩ := (hadd g font outcome middle hfirst).grown
      rw [hfirst] at h
      cases outcome with
      | error e => cases h; exact ⟨n, hgrown⟩
      | ok glyph =>
        obtain ⟨m, hrest⟩ := ih h
        exact ⟨n + m, hgrown.trans hrest⟩

theorem startTexture_grown (hgrows : font.textureSize.Grows env.maxTextureSize)
    (textures : List GlyphTexture) (address : Nat) (glyphs : Table GlyphIndex Glyph) :
    Grown 1 font { font.startTexture textures address (font.textureSize.next env.maxTextureSize)
      with textureCacheID := font.textureCacheID + 1, glyphs := glyphs } := by
  obtain ⟨hlt, hbound⟩ := hgrows.extent_lt
  exact ⟨hlt, .inr hbound, fun h => absurd h one_ne_zero, rfl⟩

/-- **A texture is created**: either the font grows, or its glyphs are left. -/
theorem createTexture_grown
    (hadd : ∀ g font result font', add g font = some (result, font') → Added g result font font')
    (h : createTexture env add font = some (result, font')) :
    ∃ n, Grown n font font' ∧ (n = 0 → font'.glyphs = font.glyphs) := by
  unfold createTexture at h
  split_ifs at h with hgrows
  · dsimp only at h
    cases hnew : env.newTexture font.created (font.textureSize.next env.maxTextureSize) with
    | error message =>
      rw [hnew] at h
      cases h
      exact ⟨0, ⟨le_rfl, .inl rfl, fun _ => rfl, (BitVec.add_zero _).symm⟩, fun _ => rfl⟩
    | ok address =>
      rw [hnew] at h
      obtain ⟨n, hrest⟩ := addAll_grown hadd h
      exact ⟨1 + n, (startTexture_grown hgrows.1 _ address ∅).trans hrest, fun h => by omega⟩
  · cases hnew : env.newTexture font.created font.textureSize with
    | error message =>
      rw [hnew] at h
      cases h
      exact ⟨0, ⟨le_rfl, .inl rfl, fun _ => rfl, (BitVec.add_zero _).symm⟩, fun _ => rfl⟩
    | ok address =>
      rw [hnew] at h
      cases h
      exact ⟨0, ⟨le_rfl, .inl rfl, fun _ => rfl, (BitVec.add_zero _).symm⟩, fun _ => rfl⟩

/-- **A glyph is added**, with as many new textures as it takes. -/
theorem addGlyph_added {fuel : Nat} : ∀ g font result font',
    addGlyph env fuel g font = some (result, font') → Added g result font font' := by
  induction fuel with
  | zero => exact fun _ _ _ _ h => by cases h
  | succ fuel ih =>
    intro g font result font' h
    rw [addGlyph] at h
    cases hdata : env.glyphData g with
    | error message =>
      rw [hdata] at h
      cases h
      exact .error g _ font
    | ok gd =>
      rw [hdata] at h
      dsimp only at h
      split_ifs at h with hfits hspace
      · apply @findRow_added _ _ g gd
        cases hcreate : createTexture env (addGlyph env fuel) (font.findRow gd) with
        | none => rw [hcreate] at h; cases h
        | some created =>
          obtain ⟨outcome, middle⟩ := created
          obtain ⟨n, hgrown, hsame⟩ := createTexture_grown ih hcreate
          rw [hcreate] at h
          cases outcome with
          | error e =>
            cases h
            refine ⟨⟨n, hgrown, fun hn g' _ => ?_⟩, fun _ h => by cases h⟩
            rw [hsame hn]
          | ok =>
            obtain ⟨⟨m, hgrown', hkeeps⟩, hstored⟩ := ih g middle result font' h
            refine ⟨⟨n + m, hgrown.trans hgrown', fun hn g' hne => ?_⟩, hstored⟩
            rw [hkeeps (by omega) g' hne, hsame (by omega)]
      · have hplaced := place_added g gd (font.findRow gd)
        rw [Option.some.inj h] at hplaced
        exact findRow_added hplaced
      · have hplaced := place_added g gd font
        rw [Option.some.inj h] at hplaced
        exact hplaced

/-! ## It returns -/

theorem addAll_returns {extent : Nat}
    (hadd : ∀ g font result font', add g font = some (result, font') → Added g result font font')
    (hreturns : ∀ g font, extent ≤ font.textureSize.extent → (add g font).isSome = true) :
    ∀ {font : Font}, extent ≤ font.textureSize.extent → (addAll add gs font).isSome = true := by
  induction gs with
  | nil => exact fun _ => rfl
  | cons g gs ih =>
    intro font hle
    obtain ⟨⟨outcome, middle⟩, hfirst⟩ := Option.isSome_iff_exists.mp (hreturns g font hle)
    obtain ⟨n, hgrown, -⟩ := (hadd g font outcome middle hfirst).grown
    rw [addAll, hfirst]
    cases outcome with
    | error e => rfl
    | ok glyph =>
      have := hgrown.extent
      exact ih (by omega)

theorem addGlyph_fresh (fuel : Nat) (hX : font.textureX = padding)
    (hY : font.textureY = padding) : (addGlyph env (fuel + 1) g font).isSome = true := by
  rw [addGlyph]
  cases hdata : env.glyphData g with
  | error message => rfl
  | ok gd =>
    dsimp only
    by_cases hfits : font.Fits gd
    · have hwidth := hfits.1
      have hheight := hfits.2
      simp only [padding] at hX hY hwidth hheight
      have hrow : font.findRow gd = font := by
        rw [findRow, if_neg]
        simp only [padding]
        omega
      rw [if_pos hfits, hrow, if_neg]
      · rfl
      · simp only [padding]
        omega
    · rw [if_neg hfits]
      rfl

theorem findRow_textureSize (font : Font) (gd : GlyphData) :
    (font.findRow gd).textureSize = font.textureSize := by
  rw [findRow]
  split_ifs <;> rfl

/-- **`addGlyph` returns**, with fuel for every size that the texture can still grow to. -/
theorem addGlyph_returns {fuel : Nat} : ∀ g font,
    2 ^ 14 + 2 ≤ fuel + font.textureSize.extent → 2 ≤ fuel →
      (addGlyph env fuel g font).isSome = true := by
  induction fuel with
  | zero => exact fun _ _ _ h => absurd h (by norm_num)
  | succ fuel ih =>
    intro g font hfuel hpos
    rw [addGlyph]
    cases hdata : env.glyphData g with
    | error message => rfl
    | ok gd =>
      dsimp only
      split_ifs with hfits hspace
      · have hsize := findRow_textureSize font gd
        generalize font.findRow gd = font at *
        rw [← hsize] at hfuel
        unfold createTexture
        split_ifs with hgrows
        · -- the texture grows, and there is fuel for every greater size
          obtain ⟨hlt, hbound⟩ := hgrows.1.extent_lt
          dsimp only
          cases hnew : env.newTexture font.created (font.textureSize.next env.maxTextureSize) with
          | error message => rfl
          | ok address =>
            dsimp only
            have hreturns : ∀ g font', (font.textureSize.next env.maxTextureSize).extent ≤
                font'.textureSize.extent → (addGlyph env fuel g font').isSome = true :=
              fun g font' hle => ih g font' (by omega) (by omega)
            have hall := @addAll_returns _ (env.order font.glyphs.keys) _ addGlyph_added hreturns
              { font.startTexture font.textures.dropLast address
                (font.textureSize.next env.maxTextureSize) with
                textureCacheID := font.textureCacheID + 1, glyphs := ∅ } le_rfl
            obtain ⟨⟨outcome, middle⟩, hcreate⟩ := Option.isSome_iff_exists.mp hall
            obtain ⟨n, hgrown⟩ := addAll_grown addGlyph_added hcreate
            have hmore : (font.textureSize.next env.maxTextureSize).extent + n ≤
                middle.textureSize.extent := hgrown.extent
            rw [hcreate]
            cases outcome with
            | error e => rfl
            | ok => exact hreturns g middle (by omega)
        · -- a further texture is empty
          cases hnew : env.newTexture font.created font.textureSize with
          | error message => rfl
          | ok address =>
            obtain ⟨fuel, rfl⟩ : ∃ n, fuel = n + 1 := ⟨fuel - 1, by omega⟩
            exact addGlyph_fresh fuel rfl rfl
      · rfl
      · rfl

/-! ## More fuel changes nothing -/

variable {add' : GlyphIndex → Font → FontResult Glyph}

theorem addAll_mono (hadd : ∀ g font r, add g font = some r → add' g font = some r) :
    ∀ {font : Font} {r : Except FontError Unit × Font},
      addAll add gs font = some r → addAll add' gs font = some r := by
  induction gs with
  | nil => exact fun h => h
  | cons g gs ih =>
    intro font r h
    rw [addAll] at h ⊢
    cases hfirst : add g font with
    | none => rw [hfirst] at h; cases h
    | some first =>
      obtain ⟨outcome, middle⟩ := first
      rw [hfirst] at h
      rw [hadd g font _ hfirst]
      cases outcome with
      | error e => exact h
      | ok glyph => exact ih h

theorem createTexture_mono (hadd : ∀ g font r, add g font = some r → add' g font = some r)
    {r : Except FontError Unit × Font} (h : createTexture env add font = some r) :
    createTexture env add' font = some r := by
  unfold createTexture at h ⊢
  split_ifs at h ⊢ with hgrows
  · dsimp only at h ⊢
    cases hnew : env.newTexture font.created (font.textureSize.next env.maxTextureSize) with
    | error message =>
      rw [hnew] at h
      exact h
    | ok address =>
      rw [hnew] at h
      exact addAll_mono hadd h
  · exact h

theorem addGlyph_succ {fuel : Nat} : ∀ g font r,
    addGlyph env fuel g font = some r → addGlyph env (fuel + 1) g font = some r := by
  induction fuel with
  | zero => exact fun _ _ _ h => by cases h
  | succ fuel ih =>
    intro g font r h
    rw [addGlyph] at h ⊢
    cases hdata : env.glyphData g with
    | error message =>
      rw [hdata] at h
      exact h
    | ok gd =>
      rw [hdata] at h
      dsimp only at h ⊢
      split_ifs at h ⊢ with hfits hspace
      · cases hcreate : createTexture env (addGlyph env fuel) (font.findRow gd) with
        | none => rw [hcreate] at h; cases h
        | some created =>
          obtain ⟨outcome, middle⟩ := created
          rw [hcreate] at h
          rw [createTexture_mono ih hcreate]
          cases outcome with
          | error e => exact h
          | ok => exact ih g middle r h
      · exact h
      · exact h

theorem addGlyph_mono {fuel fuel' : Nat} (hle : fuel ≤ fuel') {r : Except FontError Glyph × Font}
    (h : addGlyph env fuel g font = some r) :
    addGlyph env fuel' g font = some r := by
  induction hle with
  | refl => exact h
  | step _ ih => exact addGlyph_succ g font r ih

end Font

end Lhatove.Graphics
