import Lhatove.Font.BMFontLine
import Lhatove.Image.ImageData
import Lhatove.Image.PVRHandler
import Lhatove.Lib.Tables

/-!
# BMFont fonts

`love::font::BMFontRasterizer`: a font whose glyphs are rectangles of pages, and a text file
that says which.

- `read` is the page's file read and decoded; it may throw.
- A page that is looked up and not found becomes a null reference. Each is set, or an
  exception thrown, before anything else is looked up, so that it is no entry here.
- `Harmless`: what makes the copy of a character stay in its page;
- `newBMFontRasterizer_inBounds_iff`: all copies do, if all characters are so.
-/

namespace Lhatove.Font

open Image (ImageData UnormFormat)
open Image.PVR (sizeOfInt)
open List

/-- A number that an `int` can be. -/
def IsInt (x : Int) : Prop := -2 ^ 31 ≤ x ∧ x < 2 ^ 31

instance (x : Int) : Decidable (IsInt x) := inferInstanceAs (Decidable (_ ∧ _))

/-- An image of a page. Its sizes are `int`s. -/
structure Page extends ImageData where
  width_lt : width < 2 ^ 31
  height_lt : height < 2 ^ 31

structure BMFontCharacter where
  x : Int := 0
  y : Int := 0
  page : Int
  metrics : GlyphMetrics := {}
  glyph : BitVec 32

def nullchar : BMFontCharacter := { page := -1, glyph := 0 }

structure BMFontRasterizer where
  fontFolder : Text
  images : Table Int Page
  characters : List BMFontCharacter
  characterIndices : Table (BitVec 32) Nat
  kerning : Table (BitVec 64) Int
  fontSize : Int := 0
  unicode : Bool := false
  lineHeight : Int := 0
  /-- `metrics` -/
  ascent : Int := 0
  descent : Int := 0
  advance : Int := 0
  height : Int := 0

def notRGBA : GlyphFault := .exception "Only 32-bit RGBA images are supported in BMFonts."

/-! ## Parsing -/

/-- A definition of a character. The offset is negated. -/
def BMFontLine.character (cline : BMFontLine) : Except GlyphFault BMFontCharacter :=
  let bearingY := -cline.getAttributeInt "yoffset"
  if ¬ IsInt bearingY then .error .overflow
  else .ok {
    x := cline.getAttributeInt "x"
    y := cline.getAttributeInt "y"
    page := cline.getAttributeInt "page"
    metrics := {
      width := cline.getAttributeInt "width"
      height := cline.getAttributeInt "height"
      bearingX := cline.getAttributeInt "xoffset"
      bearingY
      advance := cline.getAttributeInt "xadvance" }
    glyph := BitVec.ofInt 32 (cline.getAttributeInt "id") }

namespace BMFontRasterizer

/-- A page is loaded, if it is not there. -/
def loadPage (read : Text → Except String Page) (r : BMFontRasterizer) (pageindex : Int)
    (file : Text) : Except GlyphFault BMFontRasterizer :=
  let filename := if r.fontFolder = [] then file else r.fontFolder ++ '/' :: file
  match r.images.lookup pageindex with
  | some _ => .ok r
  | none =>
    match read filename with
    | .error message => .error (.exception message)
    | .ok imagedata =>
      if imagedata.format ≠ .rgba8 then .error notRGBA
      else .ok { r with images := r.images.insert pageindex imagedata }

def addCharacter (r : BMFontRasterizer) (c : BMFontCharacter) : BMFontRasterizer :=
  { r with
    characters := r.characters ++ [c]
    characterIndices := r.characterIndices.insert c.glyph r.characters.length
    advance := max r.advance c.metrics.advance }

/-- A turn of the loop over the lines. -/
def parseLine (read : Text → Except String Page) (r : BMFontRasterizer) (cline : BMFontLine) :
    Except GlyphFault BMFontRasterizer :=
  if cline.tag = "info".toList then
    .ok { r with
      fontSize := cline.getAttributeInt "size"
      unicode := 0 < cline.getAttributeInt "unicode" }
  else if cline.tag = "common".toList then
    let lineHeight := cline.getAttributeInt "lineHeight"
    let ascent := cline.getAttributeInt "base"
    if ¬ IsInt (ascent - lineHeight) then .error .overflow
    else .ok { r with lineHeight, ascent, descent := ascent - lineHeight }
  else if cline.tag = "page".toList then
    r.loadPage read (cline.getAttributeInt "id") (cline.getAttributeString "file")
  else if cline.tag = "char".toList then
    cline.character.map r.addCharacter
  else if cline.tag = "kerning".toList then
    let firstid := BitVec.ofInt 32 (cline.getAttributeInt "first")
    let secondid := BitVec.ofInt 32 (cline.getAttributeInt "second")
    .ok { r with kerning := r.kerning.insert (firstid ++ secondid) (cline.getAttributeInt "amount") }
  else .ok r

def parseLines (read : Text → Except String Page) :
    List Text → BMFontRasterizer → Except GlyphFault BMFontRasterizer
  | [], r => .ok r
  | line :: rest, r => do
    let cline ← newBMFontLine line
    let r ← r.parseLine read cline
    parseLines read rest r

/-- The checks of a character whose id is not 0. -/
def verifyCharacter (r : BMFontRasterizer) (c : BMFontCharacter) : Except GlyphFault Unit :=
  let width := c.metrics.width
  let height := c.metrics.height
  if r.unicode = false ∧ 127 < c.glyph.toNat then
    .error (.exception
      "Invalid BMFont character id (only unicode and ASCII are supported)")
  else if c.page < 0 then
    .error (.exception s!"Invalid BMFont character page id: {c.page}")
  else
    match r.images.lookup c.page with
    | none => .error (.exception s!"Invalid BMFont character page id: {c.page}")
    | some id =>
      if ¬ id.inside c.x c.y then
        .error (.exception s!"Invalid coordinates for BMFont character {c.glyph.toNat}.")
      else if 0 < width ∧ 2 ^ 31 ≤ c.x + width then .error .overflow
      else if 0 < width ∧ ¬ id.inside (c.x + width - 1) c.y then
        .error (.exception s!"Invalid width {width} for BMFont character {c.glyph.toNat}.")
      else if 0 < height ∧ 2 ^ 31 ≤ c.y + height then .error .overflow
      else if 0 < height ∧ ¬ id.inside c.x (c.y + height - 1) then
        .error (.exception s!"Invalid height {height} for BMFont character {c.glyph.toNat}.")
      else .ok ()

/-- The loop that verifies, with the line height so far. -/
def verify (r : BMFontRasterizer) (guessheight : Bool) :
    List BMFontCharacter → Int → Except GlyphFault Int
  | [], lineHeight => .ok lineHeight
  | c :: rest, lineHeight =>
    if c.glyph = 0 then r.verify guessheight rest lineHeight
    else do
      r.verifyCharacter c
      r.verify guessheight rest (if guessheight then max lineHeight c.metrics.height else lineHeight)

def parseConfig (read : Text → Except String Page) (r : BMFontRasterizer) (configtext : Text) :
    Except GlyphFault BMFontRasterizer := do
  let r := { r with
    characters := r.characters ++ [nullchar]
    characterIndices := r.characterIndices.insert 0 r.characters.length }
  let r ← r.parseLines read (Text.lines configtext)
  if r.characters.length = 0 then
    .error (.exception "Invalid BMFont file (no character definitions?)")
  else
    let lineHeight ← r.verify (r.lineHeight = 0) r.characters r.lineHeight
    .ok { r with lineHeight, height := lineHeight }

end BMFontRasterizer

/-- The pages that are given, from one on. -/
def givenImages : List Page → Int → Table Int Page → Except GlyphFault (Table Int Page)
  | [], _, images => .ok images
  | image :: rest, i, images =>
    if image.format ≠ .rgba8 then .error notRGBA
    else givenImages rest (i + 1) (images.insert i image)

/-- The folder of a file. -/
def folder (filename : Text) : Text :=
  match filename.rfind '/' filename.length with
  | some separatorpos => filename.substr 0 separatorpos
  | none => []

/-- The constructor: the name of the font file, its contents, and images of pages. -/
def newBMFontRasterizer (read : Text → Except String Page) (filename configtext : Text)
    (imagelist : List Page) : Except GlyphFault BMFontRasterizer := do
  let images ← givenImages imagelist 0 ∅
  BMFontRasterizer.parseConfig read
    { fontFolder := folder filename, images, characters := [], characterIndices := ∅,
      kerning := ∅ } configtext

/-! ## Glyphs -/

/-- A row of a character that is copied: nothing, if it has no bytes. -/
def copyRow (c : BMFontCharacter) (imagedata : Page) (y : Nat) (data : List Byte) :
    Except GlyphFault (List Byte) :=
  let row := (c.y + y) * imagedata.width
  if ¬ (IsInt (c.y + y) ∧ IsInt row ∧ IsInt (row + c.x) ∧ IsInt (y * c.metrics.width)) then
    .error .overflow
  else
    let pixelsize := imagedata.format.pixelSize
    let idindex := sizeOfInt (row + c.x) * pixelsize % 2 ^ 64
    let index := sizeOfInt (y * c.metrics.width) * pixelsize % 2 ^ 64
    let count := pixelsize * sizeOfInt c.metrics.width % 2 ^ 64
    if count = 0 then .ok data
    else if data.length < index + count ∨ imagedata.data.length < idindex + count then
      .error .outOfBounds
    else .ok (overwrite data index ((imagedata.data.drop idindex).take count))

/-- The loop over rows, for those that are left and the one that is next. -/
def copyRows (c : BMFontCharacter) (imagedata : Page) :
    Nat → Nat → List Byte → Except GlyphFault (List Byte)
  | 0, _, data => .ok data
  | left + 1, y, data => do
    let data ← copyRow c imagedata y data
    copyRows c imagedata left (y + 1) data

namespace BMFontRasterizer

def getGlyphIndex (r : BMFontRasterizer) (glyph : BitVec 32) : Int :=
  match r.characterIndices.lookup glyph with
  | some index => index
  | none => 0

/-- The character at an index, and its page. -/
def getGlyphDataForIndex (r : BMFontRasterizer) (index : Int) :
    Except GlyphFault (GlyphData Byte) :=
  if index < 0 ∨ r.characters.length ≤ index then .ok ⟨0, {}, []⟩
  else
    match r.characters[index.toNat]? with
    | none => .ok ⟨0, {}, []⟩
    | some c =>
      match r.images.lookup c.page with
      | none => .ok ⟨c.glyph, {}, []⟩
      | some imagedata => do
        let pixels ← c.metrics.allocate
        let data ← copyRows c imagedata c.metrics.height.toNat 0
          (List.replicate (pixels * UnormFormat.rgba8.pixelSize) 0)
        .ok ⟨c.glyph, c.metrics, data⟩

/-- `Rasterizer::getGlyphData` -/
def getGlyphData (r : BMFontRasterizer) (glyph : BitVec 32) : Except GlyphFault (GlyphData Byte) :=
  r.getGlyphDataForIndex (r.getGlyphIndex glyph)

end BMFontRasterizer

/-! ## What is right -/

/-- The definitions of characters that are in a file. -/
def charDefinitions (configtext : Text) : List BMFontCharacter :=
  (Text.lines configtext).filterMap fun line =>
    match newBMFontLine line with
    | .ok cline => if cline.tag = "char".toList then cline.character.toOption else none
    | .error _ => none

/-- Every glyph has data: nothing is read outside of a page, or written outside of what is
allocated. -/
def BMFontRasterizer.InBounds (r : BMFontRasterizer) : Prop :=
  (∀ index, ∃ g, r.getGlyphDataForIndex index = .ok g) ∧ ∀ glyph, ∃ g, r.getGlyphData glyph = .ok g

/-- The index of the pixel at the left of a row, with what it is computed from, is an `int`. -/
def BMFontCharacter.RowIsInt (c : BMFontCharacter) (page : Page) (y : Nat) : Prop :=
  IsInt (c.y + y) ∧ IsInt ((c.y + y) * page.width) ∧ IsInt ((c.y + y) * page.width + c.x)

/-- Memory from the first pixel of the character to the last one is the page's. -/
def BMFontCharacter.InPage (c : BMFontCharacter) (page : Page) : Prop :=
  0 ≤ c.y * page.width + c.x ∧
    (c.y + c.metrics.height - 1) * page.width + c.x + c.metrics.width ≤ page.width * page.height

/-- **A character whose copy is harmless**, if it has rows. What is verified for the others
is asked of the characters with the id 0. -/
structure BMFontCharacter.Harmless (c : BMFontCharacter) (page : Page) : Prop where
  width : 0 ≤ c.metrics.width
  rows : ∀ y : Nat, y < c.metrics.height → c.RowIsInt page y
  area : c.metrics.width * c.metrics.height < 2 ^ 31
  inPage : c.glyph = 0 → 0 < c.metrics.width → c.InPage page

/-! ## A row -/

/-- A row can be copied. -/
def RowFits (c : BMFontCharacter) (page : Page) (y : Nat) : Prop :=
  c.RowIsInt page y ∧ IsInt (y * c.metrics.width) ∧ (c.metrics.width = 0 ∨
    (0 < c.metrics.width ∧ 0 ≤ (c.y + y) * page.width + c.x ∧
      (c.y + y) * page.width + c.x + c.metrics.width ≤ page.width * page.height))

theorem sizeOfInt_of_nonneg {x : Int} (h : 0 ≤ x) (hx : IsInt x) : sizeOfInt x = x.toNat := by
  have := hx.2
  rw [sizeOfInt, Int.emod_eq_of_lt h (by omega)]

theorem sizeOfInt_of_neg {x : Int} (h : x < 0) (hx : IsInt x) :
    (sizeOfInt x : Int) = x + 2 ^ 64 := by
  have := hx.1
  rw [sizeOfInt]
  omega

theorem Page.size_lt (page : Page) : page.width * page.height * 4 + 2 ^ 33 < 2 ^ 64 := by
  have hw := page.width_lt
  have hh := page.height_lt
  have : page.width * page.height ≤ (2 ^ 31 - 1) * (2 ^ 31 - 1) :=
    Nat.mul_le_mul (by omega) (by omega)
  omega

section

variable {c : BMFontCharacter} {page : Page} {data : List Byte}

/-- What is allocated for a character. -/
def BMFontCharacter.area (c : BMFontCharacter) : Nat :=
  if 0 < c.metrics.width then (c.metrics.width * c.metrics.height).toNat else 0

/-- The bytes that a row is copied from are in memory of the page exactly if the pixels are
in the page. -/
theorem source_le_iff {x w : Int} (hformat : page.format = .rgba8) (hx : IsInt x) (hw : IsInt w)
    (hpos : 0 < w) :
    sizeOfInt x * 4 % 2 ^ 64 + 4 * w.toNat ≤ page.data.length ↔
      0 ≤ x ∧ x + w ≤ page.width * page.height := by
  have hlength := page.size_eq
  rw [hformat, Image.UnormFormat.pixelSize] at hlength
  have hsize := page.size_lt
  have hxl := hx.1
  have hxr := hx.2
  by_cases hneg : x < 0
  · have := sizeOfInt_of_neg hneg hx
    constructor
    · intro h
      omega
    · rintro ⟨h, -⟩
      omega
  · rw [sizeOfInt_of_nonneg (not_lt.mp hneg) hx, hlength]
    constructor
    · intro h
      refine ⟨not_lt.mp hneg, ?_⟩
      zify at h
      omega
    · rintro ⟨-, h⟩
      zify
      omega

/-- **A row is copied** exactly if it fits. -/
theorem copyRow_spec (hformat : page.format = .rgba8) (hw : IsInt c.metrics.width) {y : Nat}
    (hy : y < c.metrics.height) (hdata : data.length = c.area * 4) :
    (RowFits c page y → ∃ data', copyRow c page y data = .ok data' ∧
      data'.length = data.length) ∧
    (¬ RowFits c page y → ∀ data', copyRow c page y data ≠ .ok data') := by
  have hlow := hw.1
  have hhigh := hw.2
  have hcount : 4 * sizeOfInt c.metrics.width % 2 ^ 64 = 0 ↔ c.metrics.width = 0 := by
    by_cases hneg : c.metrics.width < 0
    · have := sizeOfInt_of_neg hneg hw
      omega
    · rw [sizeOfInt_of_nonneg (not_lt.mp hneg) hw]
      omega
  rw [copyRow]
  by_cases hints : IsInt (c.y + y) ∧ IsInt ((c.y + y) * page.width) ∧
      IsInt ((c.y + y) * page.width + c.x) ∧ IsInt (y * c.metrics.width)
  · obtain ⟨hsum, hrow, hindex, hcolumn⟩ := hints
    rw [if_neg (not_not.mpr ⟨hsum, hrow, hindex, hcolumn⟩)]
    simp only [hformat, Image.UnormFormat.pixelSize, hcount]
    have hfits : RowFits c page y ↔ c.metrics.width = 0 ∨ (0 < c.metrics.width ∧
        0 ≤ (c.y + y) * page.width + c.x ∧
        (c.y + y) * page.width + c.x + c.metrics.width ≤ page.width * page.height) := by
      constructor
      · intro h
        exact h.2.2
      · intro h
        exact ⟨⟨hsum, hrow, hindex⟩, hcolumn, h⟩
    rw [hfits]
    rcases lt_trichotomy c.metrics.width 0 with hneg | hzero | hpos
    · -- nothing is allocated, and the count is near the number of all addresses
      have hnone : data.length = 0 := by
        rw [hdata, BMFontCharacter.area, if_neg (by omega), Nat.zero_mul]
      have := hcount.not.mpr (by omega)
      rw [if_neg (by omega), if_pos (.inl (by omega))]
      constructor
      · omega
      · intro _ data' h
        cases h
    · rw [if_pos hzero]
      constructor
      · intro _
        exact ⟨data, rfl, rfl⟩
      · omega
    · have hsource := source_le_iff hformat hindex hw hpos
      have hwidth := sizeOfInt_of_nonneg (le_of_lt hpos) hw
      have hdest : sizeOfInt (y * c.metrics.width) * 4 % 2 ^ 64 + 4 * c.metrics.width.toNat ≤
          data.length := by
        have hle : (y + 1) * c.metrics.width ≤ c.metrics.height * c.metrics.width :=
          Int.mul_le_mul_of_nonneg_right (by omega) (le_of_lt hpos)
        have hcolumn0 : 0 ≤ y * c.metrics.width := by positivity
        have := hcolumn.2
        rw [sizeOfInt_of_nonneg hcolumn0 hcolumn, hdata, BMFontCharacter.area, if_pos hpos,
          mul_comm c.metrics.width]
        rw [Int.add_mul, one_mul] at hle
        omega
      rw [if_neg (by omega), hwidth]
      have hmod : 4 * c.metrics.width.toNat % 2 ^ 64 = 4 * c.metrics.width.toNat :=
        Nat.mod_eq_of_lt (by omega)
      rw [hmod]
      constructor
      · intro h
        have hin := hsource.mpr (h.resolve_left (by omega)).2
        rw [if_neg (by omega)]
        refine ⟨_, rfl, overwrite_length ?_⟩
        rw [length_take_of_le (by rw [length_drop]; omega)]
        exact hdest
      · intro h data'
        rw [if_pos (.inr (by omega))]
        intro heq
        cases heq
  · rw [if_pos hints]
    constructor
    · rintro ⟨⟨hsum, hrow, hindex⟩, hcolumn, -⟩
      exact absurd ⟨hsum, hrow, hindex, hcolumn⟩ hints
    · intro _ data' h
      cases h

/-- The rows are copied exactly if all of them fit. -/
theorem copyRows_ok_iff (hformat : page.format = .rgba8) (hw : IsInt c.metrics.width)
    {left y : Nat} (hy : y + left ≤ c.metrics.height.toNat) (hdata : data.length = c.area * 4) :
    (∃ data', copyRows c page left y data = .ok data') ↔
      ∀ j, y ≤ j → j < y + left → RowFits c page j := by
  induction left generalizing y data with
  | zero =>
    constructor
    · intro _ j hj hlt
      omega
    · intro _
      exact ⟨data, rfl⟩
  | succ left ih =>
    obtain ⟨hok, hnot⟩ := @copyRow_spec c page data hformat hw y (by omega) hdata
    rw [copyRows]
    by_cases hfits : RowFits c page y
    · obtain ⟨data', hrow, hlength⟩ := hok hfits
      rw [hrow]
      simp only [Except.bind, bind]
      rw [ih (by omega) (hlength.trans hdata)]
      constructor
      · intro h j hj hlt
        rcases Nat.eq_or_lt_of_le hj with rfl | hnext
        · exact hfits
        · exact h j hnext (by omega)
      · intro h j hj hlt
        exact h j (by omega) (by omega)
    · constructor
      · rintro ⟨data', h⟩
        cases hrow : copyRow c page y data with
        | error fault =>
          rw [hrow] at h
          cases h
        | ok row => exact absurd hrow (hnot hfits row)
      · intro h
        exact absurd (h y le_rfl (by omega)) hfits

end

/-! ## A character -/

section

variable {c : BMFontCharacter} {page : Page}

/-- All rows fit exactly if the numbers do and the character is in memory of the page. -/
theorem rowsFit_iff (hheight : 0 < c.metrics.height)
    (harea : c.metrics.width * c.metrics.height < 2 ^ 31) :
    (∀ j : Nat, j < c.metrics.height.toNat → RowFits c page j) ↔
      0 ≤ c.metrics.width ∧ (∀ y : Nat, y < c.metrics.height → c.RowIsInt page y) ∧
        (0 < c.metrics.width → c.InPage page) := by
  constructor
  · intro h
    have hfirst := h 0 (by omega)
    have hlast := h (c.metrics.height.toNat - 1) (by omega)
    have hcast : ((c.metrics.height.toNat - 1 : Nat) : Int) = c.metrics.height - 1 := by omega
    refine ⟨?_, fun y hy => (h y (by omega)).1, ?_⟩
    · rcases hfirst.2.2 with hzero | hpos
      · omega
      · omega
    · intro hpos
      obtain ⟨-, hlow, -⟩ := hfirst.2.2.resolve_left (by omega)
      obtain ⟨-, -, hhigh⟩ := hlast.2.2.resolve_left (by omega)
      rw [hcast] at hhigh
      rw [Nat.cast_zero, add_zero] at hlow
      refine ⟨hlow, ?_⟩
      rw [show c.y + c.metrics.height - 1 = c.y + (c.metrics.height - 1) by ring]
      exact hhigh
  · rintro ⟨hwidth, hrows, hin⟩ j hj
    have hrow : (j : Int) * c.metrics.width ≤ c.metrics.height * c.metrics.width :=
      Int.mul_le_mul_of_nonneg_right (by omega) hwidth
    have hcolumn : 0 ≤ (j : Int) * c.metrics.width := by positivity
    rw [mul_comm c.metrics.width] at harea
    refine ⟨hrows j (by omega), ⟨by omega, by omega⟩, ?_⟩
    rcases eq_or_lt_of_le hwidth with hzero | hpos
    · exact .inl hzero.symm
    · obtain ⟨hlow, hhigh⟩ := hin hpos
      have hfirst : c.y * page.width ≤ (c.y + j) * page.width :=
        Int.mul_le_mul_of_nonneg_right (by omega) (by omega)
      have hlast : (c.y + j) * page.width ≤ (c.y + c.metrics.height - 1) * page.width :=
        Int.mul_le_mul_of_nonneg_right (by omega) (by omega)
      exact .inr ⟨hpos, by omega, by omega⟩

/-- Where a character is verified, it is in its page. -/
structure BMFontCharacter.Verified (c : BMFontCharacter) (page : Page) : Prop where
  x : 0 ≤ c.x ∧ c.x < page.width
  y : 0 ≤ c.y ∧ c.y < page.height
  right : 0 < c.metrics.width → c.x + c.metrics.width ≤ page.width
  bottom : 0 < c.metrics.height → c.y + c.metrics.height ≤ page.height

theorem BMFontCharacter.Verified.inPage (h : c.Verified page) (hw : 0 < c.metrics.width)
    (hh : 0 < c.metrics.height) : c.InPage page := by
  have hx := h.x.1
  have hy := h.y.1
  have hright := h.right hw
  have hbottom := h.bottom hh
  have hlast : (c.y + c.metrics.height - 1) * (page.width : Int) ≤
      ((page.height : Int) - 1) * page.width :=
    Int.mul_le_mul_of_nonneg_right (by omega) (by omega)
  refine ⟨by positivity, ?_⟩
  have hall : ((page.height : Int) - 1) * page.width = page.width * page.height - page.width := by
    ring
  omega

/-- The data of a character is made exactly if its copy is harmless. -/
theorem copy_ok_iff (hformat : page.format = .rgba8) (hw : IsInt c.metrics.width)
    (hverified : c.glyph ≠ 0 → c.Verified page) :
    (∃ pixels data, c.metrics.allocate = .ok pixels ∧
        copyRows c page c.metrics.height.toNat 0
          (List.replicate (pixels * UnormFormat.rgba8.pixelSize) 0) = .ok data) ↔
      (0 < c.metrics.height → c.Harmless page) := by
  by_cases hheight : 0 < c.metrics.height
  · have hiff : c.Harmless page ↔ c.metrics.width * c.metrics.height < 2 ^ 31 ∧
        0 ≤ c.metrics.width ∧ (∀ y : Nat, y < c.metrics.height → c.RowIsInt page y) ∧
        (0 < c.metrics.width → c.InPage page) := by
      constructor
      · intro h
        refine ⟨h.area, h.width, h.rows, ?_⟩
        intro hpos
        by_cases hnull : c.glyph = 0
        · exact h.inPage hnull hpos
        · exact (hverified hnull).inPage hpos hheight
      · rintro ⟨harea, hwidth, hrows, hin⟩
        exact ⟨hwidth, hrows, harea, fun _ => hin⟩
    have harea : ∀ pixels, c.metrics.allocate = .ok pixels ↔
        c.metrics.width * c.metrics.height < 2 ^ 31 ∧ pixels = c.area := by
      intro pixels
      rw [GlyphMetrics.allocate, BMFontCharacter.area]
      by_cases hpos : 0 < c.metrics.width
      · rw [if_pos ⟨hpos, hheight⟩, if_pos hpos]
        split
        · simp only [reduceCtorEq, false_iff, not_and]
          omega
        next hlarge =>
          simp only [Except.ok.injEq]
          constructor
          · intro h
            exact ⟨not_le.mp hlarge, h.symm⟩
          · rintro ⟨-, h⟩
            exact h.symm
      · rw [if_neg fun h => hpos h.1, if_neg hpos]
        have hnonpos : c.metrics.width * c.metrics.height ≤ 0 :=
          Int.mul_nonpos_of_nonpos_of_nonneg (not_lt.mp hpos) (le_of_lt hheight)
        simp only [Except.ok.injEq]
        constructor
        · intro h
          exact ⟨by omega, h.symm⟩
        · rintro ⟨-, h⟩
          exact h.symm
    constructor
    · rintro ⟨pixels, data, hpixels, hdata⟩ _
      obtain ⟨hfit, rfl⟩ := (harea pixels).mp hpixels
      rw [hiff, ← rowsFit_iff hheight hfit]
      refine ⟨hfit, ?_⟩
      have hrows := (copyRows_ok_iff hformat hw (by omega) (by rw [length_replicate]; rfl)).mp
        ⟨data, hdata⟩
      intro j hj
      exact hrows j (Nat.zero_le j) (by omega)
    · intro h
      obtain ⟨hfit, hrest⟩ := hiff.mp (h hheight)
      have hrows := (rowsFit_iff hheight hfit).mpr hrest
      have hlength : (List.replicate (c.area * UnormFormat.rgba8.pixelSize) (0 : Byte)).length =
          c.area * 4 := by
        rw [length_replicate]
        rfl
      have hall : ∀ j, 0 ≤ j → j < 0 + c.metrics.height.toNat → RowFits c page j := by
        intro j _ hj
        exact hrows j (by omega)
      obtain ⟨data, hdata⟩ := (copyRows_ok_iff hformat hw (by omega) hlength).mpr hall
      exact ⟨c.area, data, (harea _).mpr ⟨hfit, rfl⟩, hdata⟩
  · have hzero : c.metrics.height.toNat = 0 := by omega
    rw [GlyphMetrics.allocate, if_neg fun h => hheight h.2, hzero]
    constructor
    · intro _ h
      exact absurd h hheight
    · intro _
      exact ⟨0, _, rfl, rfl⟩

end

/-! ## The font -/

namespace BMFontRasterizer

/-- All pages have the format that the copy expects. -/
def PagesRGBA (images : Table Int Page) : Prop :=
  ∀ p page, images.lookup p = some page → page.format = .rgba8

theorem pagesRGBA_insert {images : Table Int Page} {p : Int} {page : Page}
    (h : PagesRGBA images) (hformat : page.format = .rgba8) :
    PagesRGBA (images.insert p page) := by
  intro q page' hq
  rw [Table.lookup_insert_eq] at hq
  split_ifs at hq with heq
  · rw [← Option.some.inj hq]
    exact hformat
  · exact h q page' hq

theorem givenImages_rgba {imagelist : List Page} {i : Int} {images images' : Table Int Page}
    (h : givenImages imagelist i images = .ok images') (hbefore : PagesRGBA images) :
    PagesRGBA images' := by
  induction imagelist generalizing i images with
  | nil =>
    cases h
    exact hbefore
  | cons image rest ih =>
    rw [givenImages] at h
    split_ifs at h with hformat
    exact ih h (pagesRGBA_insert hbefore (not_not.mp hformat))

theorem parseLine_ok {read : Text → Except String Page} {r r' : BMFontRasterizer}
    {cline : BMFontLine} (h : r.parseLine read cline = .ok r') (hpages : PagesRGBA r.images) :
    PagesRGBA r'.images ∧ r'.characters = r.characters ++
      (if cline.tag = "char".toList then cline.character.toOption else none).toList := by
  rw [parseLine] at h
  split at h
  next hinfo =>
    cases h
    rw [hinfo, if_neg (by decide)]
    exact ⟨hpages, by simp⟩
  by_cases hcommon : cline.tag = "common".toList
  · rw [if_pos hcommon] at h
    dsimp only at h
    split_ifs at h
    cases h
    rw [hcommon, if_neg (by decide)]
    exact ⟨hpages, by simp⟩
  rw [if_neg hcommon] at h
  split at h
  next hpage =>
    rw [loadPage] at h
    rw [hpage, if_neg (by decide)]
    split at h
    · cases h
      exact ⟨hpages, by simp⟩
    · split at h
      · cases h
      · split_ifs at h with hformat
        cases h
        exact ⟨pagesRGBA_insert hpages (not_not.mp hformat), by simp⟩
  split at h
  next hchar =>
    rw [if_pos hchar]
    cases hc : cline.character with
    | error fault =>
      rw [hc] at h
      cases h
    | ok c =>
      rw [hc] at h
      cases h
      exact ⟨hpages, rfl⟩
  rename_i hchar
  rw [if_neg hchar]
  split_ifs at h <;> cases h <;> exact ⟨hpages, by simp⟩

theorem parseLines_ok {read : Text → Except String Page} {lines : List Text}
    {r r' : BMFontRasterizer} (h : parseLines read lines r = .ok r')
    (hpages : PagesRGBA r.images) :
    PagesRGBA r'.images ∧ r'.characters = r.characters ++ lines.filterMap fun line =>
      match newBMFontLine line with
      | .ok cline => if cline.tag = "char".toList then cline.character.toOption else none
      | .error _ => none := by
  induction lines generalizing r with
  | nil =>
    cases h
    exact ⟨hpages, by simp⟩
  | cons line rest ih =>
    obtain ⟨cline, hline⟩ := newBMFontLine_ends line
    rw [parseLines, hline] at h
    simp only [Except.bind, bind] at h
    cases hr : r.parseLine read cline with
    | error fault =>
      rw [hr] at h
      cases h
    | ok next =>
      rw [hr] at h
      obtain ⟨hnext, hcharacters⟩ := parseLine_ok hr hpages
      obtain ⟨hpages', hrest⟩ := ih h hnext
      refine ⟨hpages', ?_⟩
      rw [hrest, hcharacters, append_assoc, filterMap_cons, hline]
      dsimp only
      cases (if cline.tag = "char".toList then cline.character.toOption else none) <;> rfl

end BMFontRasterizer

/-! ## The end of parsing -/

/-- A computation that ends. -/
structure Ends {α : Type} (x : Except GlyphFault α) : Prop where
  ne : x ≠ .error .endless

theorem Ends.ok {α : Type} (a : α) : Ends (.ok a) := by
  constructor
  intro h
  cases h

theorem Ends.exception {α : Type} (message : String) :
    Ends (.error (.exception message) : Except GlyphFault α) := by
  constructor
  intro h
  cases h

theorem Ends.overflow {α : Type} : Ends (.error .overflow : Except GlyphFault α) := by
  constructor
  intro h
  cases h

theorem Ends.bind {α β : Type} {x : Except GlyphFault α} {f : α → Except GlyphFault β}
    (hx : Ends x) (hf : ∀ a, Ends (f a)) : Ends (x >>= f) := by
  cases x with
  | error fault =>
    constructor
    intro h
    cases h
    exact hx.ne rfl
  | ok a => exact hf a

theorem Ends.ite {α : Type} {p : Prop} [Decidable p] {x y : Except GlyphFault α} (hx : Ends x)
    (hy : Ends y) : Ends (if p then x else y) := by
  split_ifs
  · exact hx
  · exact hy

namespace BMFontRasterizer

theorem loadPage_ends (read : Text → Except String Page) (r : BMFontRasterizer) (pageindex : Int)
    (file : Text) : Ends (r.loadPage read pageindex file) := by
  rw [loadPage]
  split
  · exact .ok r
  · split
    · exact .exception _
    · exact .ite (.exception _) (.ok _)

theorem parseLine_ends (read : Text → Except String Page) (r : BMFontRasterizer)
    (cline : BMFontLine) : Ends (r.parseLine read cline) := by
  rw [parseLine]
  by_cases hpage : cline.tag = "page".toList
  · rw [hpage, if_neg (by decide), if_neg (by decide), if_pos rfl]
    exact loadPage_ends ..
  · rw [if_neg hpage]
    refine .ite (.ok _) (.ite (.ite .overflow (.ok _)) (.ite ?_ (.ite (.ok _) (.ok _))))
    -- the definition of a character
    rw [BMFontLine.character]
    split_ifs
    · exact .ok _
    · exact .overflow

theorem parseLines_ends (read : Text → Except String Page) (lines : List Text)
    (r : BMFontRasterizer) : Ends (parseLines read lines r) := by
  induction lines generalizing r with
  | nil => exact .ok r
  | cons line rest ih =>
    obtain ⟨cline, hline⟩ := newBMFontLine_ends line
    rw [parseLines, hline]
    exact (Ends.ok cline).bind fun cline => (parseLine_ends read r cline).bind ih

theorem verifyCharacter_ends (r : BMFontRasterizer) (c : BMFontCharacter) :
    Ends (r.verifyCharacter c) := by
  rw [verifyCharacter]
  refine .ite (.exception _) (.ite (.exception _) ?_)
  split
  · exact .exception _
  · refine .ite (.exception _) ?_
    -- the width, and the height
    refine .ite .overflow (.ite (.exception _) ?_)
    exact .ite .overflow (.ite (.exception _) (.ok ()))

theorem verify_ends (r : BMFontRasterizer) (guessheight : Bool) (characters : List BMFontCharacter)
    (lineHeight : Int) : Ends (r.verify guessheight characters lineHeight) := by
  induction characters generalizing lineHeight with
  | nil => exact .ok lineHeight
  | cons c rest ih =>
    rw [verify]
    split_ifs with hnull
    · exact ih lineHeight
    all_goals exact (verifyCharacter_ends r c).bind fun _ => ih _

theorem parseConfig_ends (read : Text → Except String Page) (r : BMFontRasterizer)
    (configtext : Text) : Ends (r.parseConfig read configtext) := by
  rw [parseConfig]
  refine (parseLines_ends ..).bind fun r => ?_
  split_ifs
  · exact .exception _
  · exact (verify_ends ..).bind fun lineHeight => .ok _

end BMFontRasterizer

theorem givenImages_ends (imagelist : List Page) (i : Int) (images : Table Int Page) :
    Ends (givenImages imagelist i images) := by
  induction imagelist generalizing i images with
  | nil => exact .ok images
  | cons image rest ih =>
    rw [givenImages]
    split_ifs
    · exact .exception _
    · exact ih ..

/-- **Parsing ends**, for every file. -/
theorem newBMFontRasterizer_ends (read : Text → Except String Page) (filename configtext : Text)
    (imagelist : List Page) : Ends (newBMFontRasterizer read filename configtext imagelist) := by
  rw [newBMFontRasterizer]
  exact (givenImages_ends ..).bind fun images => BMFontRasterizer.parseConfig_ends ..

/-! ## Accepted files -/

theorem of_check {α : Type} {p : Prop} [Decidable p] {fault : GlyphFault}
    {x : Except GlyphFault α} {a : α} (h : (if p then .error fault else x) = .ok a) :
    ¬ p ∧ x = .ok a := by
  split_ifs at h with hp
  exact ⟨hp, h⟩

namespace BMFontRasterizer

variable {r : BMFontRasterizer} {c : BMFontCharacter}

theorem verifyCharacter_ok (h : r.verifyCharacter c = .ok ()) :
    ∃ page, r.images.lookup c.page = some page ∧ c.Verified page := by
  rw [verifyCharacter] at h
  obtain ⟨-, h⟩ := of_check h
  obtain ⟨-, h⟩ := of_check h
  cases hpage : r.images.lookup c.page with
  | none =>
    rw [hpage] at h
    cases h
  | some page =>
    rw [hpage] at h
    obtain ⟨hin, h⟩ := of_check h
    obtain ⟨-, h⟩ := of_check h
    obtain ⟨hright, h⟩ := of_check h
    obtain ⟨-, h⟩ := of_check h
    obtain ⟨hbottom, -⟩ := of_check h
    obtain ⟨hx, hxw, hy, hyh⟩ := not_not.mp hin
    refine ⟨page, rfl, ⟨hx, hxw⟩, ⟨hy, hyh⟩, ?_, ?_⟩
    · intro hpos
      have hinside := not_not.mp fun hout => hright ⟨hpos, hout⟩
      have := hinside.2.1
      omega
    · intro hpos
      have hinside := not_not.mp fun hout => hbottom ⟨hpos, hout⟩
      have := hinside.2.2.2
      omega

theorem verify_ok {guessheight : Bool} {characters : List BMFontCharacter}
    {lineHeight lineHeight' : Int}
    (h : r.verify guessheight characters lineHeight = .ok lineHeight') :
    ∀ c ∈ characters, c.glyph ≠ 0 → ∃ page, r.images.lookup c.page = some page ∧
      c.Verified page := by
  induction characters generalizing lineHeight with
  | nil => simp
  | cons first rest ih =>
    rw [verify] at h
    split at h
    next hnull =>
      intro c hc hglyph
      rcases mem_cons.mp hc with rfl | hrest
      · exact absurd hnull hglyph
      · exact ih h c hrest hglyph
    · cases hfirst : r.verifyCharacter first with
      | error fault =>
        rw [hfirst] at h
        cases h
      | ok _ =>
        rw [hfirst] at h
        intro c hc hglyph
        rcases mem_cons.mp hc with rfl | hrest
        · exact verifyCharacter_ok hfirst
        · exact ih h c hrest hglyph

theorem getGlyphDataForIndex_ok_iff :
    (∀ index, ∃ g, r.getGlyphDataForIndex index = .ok g) ↔
      ∀ c ∈ r.characters, ∀ page, r.images.lookup c.page = some page →
        ∃ pixels data, c.metrics.allocate = .ok pixels ∧
          copyRows c page c.metrics.height.toNat 0
            (List.replicate (pixels * UnormFormat.rgba8.pixelSize) 0) = .ok data := by
  constructor
  · intro h c hc page hpage
    obtain ⟨i, hi⟩ := mem_iff_getElem?.mp hc
    have hlt := (List.getElem?_eq_some_iff.mp hi).1
    obtain ⟨g, hg⟩ := h i
    rw [getGlyphDataForIndex, if_neg (by omega), Int.toNat_natCast, hi] at hg
    simp only [hpage, Except.bind, bind] at hg
    cases hpixels : c.metrics.allocate with
    | error fault =>
      rw [hpixels] at hg
      cases hg
    | ok pixels =>
      rw [hpixels] at hg
      cases hdata : copyRows c page c.metrics.height.toNat 0
          (List.replicate (pixels * UnormFormat.rgba8.pixelSize) 0) with
      | error fault =>
        simp only [hdata] at hg
        cases hg
      | ok data => exact ⟨pixels, data, rfl, hdata⟩
  · intro h index
    rw [getGlyphDataForIndex]
    split_ifs with hrange
    · exact ⟨_, rfl⟩
    · split
      · exact ⟨_, rfl⟩
      · next c hc =>
        split
        · exact ⟨_, rfl⟩
        · next page hpage =>
          obtain ⟨pixels, data, hpixels, hdata⟩ := h c (mem_of_getElem? hc) page hpage
          rw [hpixels]
          simp only [hdata, Except.bind, bind]
          exact ⟨_, rfl⟩

theorem allInBounds_iff (hpages : PagesRGBA r.images)
    (hwidths : ∀ c ∈ r.characters, IsInt c.metrics.width)
    (hverified : ∀ c ∈ r.characters, c.glyph ≠ 0 →
      ∃ page, r.images.lookup c.page = some page ∧ c.Verified page) :
    r.InBounds ↔ ∀ c ∈ r.characters, ∀ page, r.images.lookup c.page = some page →
      0 < c.metrics.height → c.Harmless page := by
  have hcopy : ∀ c ∈ r.characters, ∀ page, r.images.lookup c.page = some page →
      ((∃ pixels data, c.metrics.allocate = .ok pixels ∧
        copyRows c page c.metrics.height.toNat 0
          (List.replicate (pixels * UnormFormat.rgba8.pixelSize) 0) = .ok data) ↔
      (0 < c.metrics.height → c.Harmless page)) := by
    intro c hc page hpage
    refine copy_ok_iff (hpages c.page page hpage) (hwidths c hc) ?_
    intro hglyph
    obtain ⟨page', hpage', h⟩ := hverified c hc hglyph
    rw [hpage] at hpage'
    rw [Option.some.inj hpage']
    exact h
  constructor
  · intro h c hc page hpage
    exact (hcopy c hc page hpage).mp (getGlyphDataForIndex_ok_iff.mp h.1 c hc page hpage)
  · intro h
    have hall := getGlyphDataForIndex_ok_iff.mpr fun c hc page hpage =>
      (hcopy c hc page hpage).mpr (h c hc page hpage)
    exact ⟨hall, fun glyph => hall _⟩

end BMFontRasterizer

theorem charDefinitions_width {configtext : Text} {c : BMFontCharacter}
    (h : c ∈ charDefinitions configtext) : IsInt c.metrics.width := by
  rw [charDefinitions, mem_filterMap] at h
  obtain ⟨line, -, hline⟩ := h
  obtain ⟨cline, hcline⟩ := newBMFontLine_ends line
  rw [hcline] at hline
  dsimp only at hline
  split_ifs at hline
  rw [BMFontLine.character] at hline
  split_ifs at hline
  · cases hline
    exact BMFontLine.getAttributeInt_bounds cline "width"
  · cases hline

section

variable {read : Text → Except String Page} {filename configtext : Text} {imagelist : List Page}
  {r : BMFontRasterizer}

theorem newBMFontRasterizer_ok
    (h : newBMFontRasterizer read filename configtext imagelist = .ok r) :
    BMFontRasterizer.PagesRGBA r.images ∧ r.characters = nullchar :: charDefinitions configtext ∧
      ∀ c ∈ r.characters, c.glyph ≠ 0 →
        ∃ page, r.images.lookup c.page = some page ∧ c.Verified page := by
  rw [newBMFontRasterizer] at h
  cases hgiven : givenImages imagelist 0 ∅ with
  | error fault =>
    rw [hgiven] at h
    cases h
  | ok images =>
    have hnone : BMFontRasterizer.PagesRGBA (∅ : Table Int Page) := by
      intro p page hp
      simp at hp
    have himages := BMFontRasterizer.givenImages_rgba hgiven hnone
    rw [hgiven] at h
    simp only [Except.bind, bind, BMFontRasterizer.parseConfig] at h
    revert h
    generalize hlines : BMFontRasterizer.parseLines read (Text.lines configtext) _ = parsed
    intro h
    cases parsed with
    | error fault => cases h
    | ok next =>
      obtain ⟨hpages, hcharacters⟩ := BMFontRasterizer.parseLines_ok hlines himages
      dsimp only at h
      split_ifs at h with hnone
      revert h
      generalize hverify : next.verify _ _ _ = verified
      intro h
      cases verified with
      | error fault => cases h
      | ok lineHeight =>
        cases h
        have hverified := BMFontRasterizer.verify_ok hverify
        exact ⟨hpages, hcharacters, hverified⟩

/-- **Copies of glyphs stay in bounds**, for every file that is accepted, exactly if every
definition of a character that has rows, and whose page has an image, is harmless; and
parsing ends, for every file. -/
theorem newBMFontRasterizer_inBounds_iff :
    newBMFontRasterizer read filename configtext imagelist ≠ .error .endless ∧
      ∀ r, newBMFontRasterizer read filename configtext imagelist = .ok r →
        (r.InBounds ↔ ∀ c ∈ charDefinitions configtext, ∀ page,
          r.images.lookup c.page = some page → 0 < c.metrics.height → c.Harmless page) := by
  refine ⟨(newBMFontRasterizer_ends ..).ne, ?_⟩
  intro r h
  obtain ⟨hpages, hcharacters, hverified⟩ := newBMFontRasterizer_ok h
  have hwidths : ∀ c ∈ r.characters, IsInt c.metrics.width := by
    intro c hc
    rw [hcharacters] at hc
    rcases mem_cons.mp hc with rfl | hc
    · decide
    · exact charDefinitions_width hc
  rw [BMFontRasterizer.allInBounds_iff hpages hwidths hverified, hcharacters, forall_mem_cons]
  constructor
  · intro h
    exact h.2
  · intro h
    refine ⟨?_, h⟩
    -- the null character has no rows
    intro page _ hheight
    exact absurd hheight (by decide)

end

/-- A page of two pixels by one. -/
def twoPixels : Page where
  format := .rgba8
  width := 2
  height := 1
  data := [1, 2, 3, 4, 5, 6, 7, 8]
  size_eq := rfl
  width_lt := by norm_num
  height_lt := by norm_num

/-- No file can be read. -/
def readNothing (_ : Text) : Except String Page := .error "Could not open file."

/-- A definition that has the right pixel as the letter A. -/
def rightPixel : Text := "char id=65 x=1 width=1 height=1".toList

/-- One whose width is negative. -/
def negativeWidth : Text := "char id=65 x=1 width=-1 height=1".toList

/-- One with the id 0, behind the page. -/
def nullBehind : Text := "char id=0 x=5 width=1 height=1".toList

/-- The letter A. -/
def letterA : BMFontCharacter where
  x := 1
  page := 0
  metrics := { width := 1, height := 1 }
  glyph := 65

theorem newBMFontRasterizer_inBounds_rightPixel :
    ∃ r, newBMFontRasterizer readNothing [] rightPixel [twoPixels] = .ok r ∧ r.InBounds := by
  obtain ⟨r, hr, himages⟩ : ∃ r, newBMFontRasterizer readNothing [] rightPixel [twoPixels] =
      .ok r ∧ r.images = .insert 0 twoPixels ∅ := ⟨_, rfl, rfl⟩
  refine ⟨r, hr, (newBMFontRasterizer_inBounds_iff.2 r hr).mpr ?_⟩
  have hdefinitions : charDefinitions rightPixel = [letterA] := rfl
  rw [hdefinitions]
  intro c hc page hpage _
  obtain rfl := mem_singleton.mp hc
  rw [himages] at hpage
  cases show some twoPixels = some page from hpage
  refine ⟨by decide, ?_, by decide, ?_⟩
  · intro y hy
    have hlt : (y : Int) < 1 := hy
    obtain rfl : y = 0 := by omega
    exact ⟨by decide, by decide, by decide⟩
  · intro hnull
    exact absurd hnull (by decide)

/-- Both are accepted, and copied from or to where there is nothing. -/
theorem not_inBounds :
    (∃ r, newBMFontRasterizer readNothing [] negativeWidth [twoPixels] = .ok r ∧
      r.getGlyphData 65 = .error .outOfBounds) ∧
    ∃ r, newBMFontRasterizer readNothing [] nullBehind [twoPixels] = .ok r ∧
      r.getGlyphData 0 = .error .outOfBounds :=
  ⟨⟨_, rfl, rfl⟩, ⟨_, rfl, rfl⟩⟩

end Lhatove.Font
