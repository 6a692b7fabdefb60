import Lhatove.Common.Range
import Lhatove.Graphics.FontVertices
import Lhatove.Math.Polygons

/-!
# Text shapers

`love::font::TextShaper`, with `GenericShaper` and `freetype::HarfbuzzShaper`: where the glyphs
of a text are, and where its lines are broken.

- Coordinates are of any type `K`. What is rounded and how fractions are made are functions of
  the shaper.
- Glyphs' metrics and kerning are functions, and so is HarfBuzz (`hb_shape`). What is cached of
  them is left out.
- Indices are numbers, where the source has `int`: texts are shorter than 2 ^ 31.
- `getWrap` goes on with at most as many turns as there are codepoints.
-/

namespace Lhatove.Font

open Graphics (GlyphIndex IndexedColor)
open Math (Vector2)

/-! ## Texts -/

structure ColoredString (κ : Type) where
  str : List (BitVec 8)
  color : κ

structure ColoredCodepoints (κ : Type) where
  cps : List Nat
  colors : List (IndexedColor κ)

/-- The decoding of UTF-8, or what is wrong with the bytes. -/
structure Utf8 where
  decode : List (BitVec 8) → Except String (List Nat)
  decode_ne_nil : ∀ str cps, str ≠ [] → decode str = .ok cps → cps ≠ []

section

variable {κ : Type}

/-- The loop over the strings. -/
def addStrings (utf8 : Utf8) :
    List (ColoredString κ) → ColoredCodepoints κ → Except String (ColoredCodepoints κ)
  | [], codepoints => .ok codepoints
  | cstr :: strs, codepoints =>
    if cstr.str = [] then addStrings utf8 strs codepoints
    else
      match utf8.decode cstr.str with
      | .error what => .error s!"UTF-8 decoding error: {what}"
      | .ok cps =>
        addStrings utf8 strs
          ⟨codepoints.cps ++ cps, codepoints.colors ++ [⟨cstr.color, codepoints.cps.length⟩]⟩

/-- One white string needs no colors. -/
def dropWhite [DecidableEq κ] (white : κ) (codepoints : ColoredCodepoints κ) :
    ColoredCodepoints κ :=
  match codepoints.colors with
  | [c] => if c.index = 0 ∧ c.color = white then ⟨codepoints.cps, []⟩ else codepoints
  | _ => codepoints

def getCodepointsFromString [DecidableEq κ] (utf8 : Utf8) (white : κ)
    (strs : List (ColoredString κ)) : Except String (ColoredCodepoints κ) :=
  match addStrings utf8 strs ⟨[], []⟩ with
  | .error e => .error e
  | .ok codepoints => .ok (dropWhite white codepoints)

end

/-- `'\n'` -/
def newline : Nat := 10

/-- `'\r'` -/
def carriageReturn : Nat := 13

def isWhitespace (codepoint : Nat) : Bool := codepoint = 32 || codepoint = 9

/-- The codepoints of a range of a text, with their indices. -/
def codepointsOf (cps : List Nat) (range : Range) : List (Nat × Nat) :=
  (cps.zipIdx.drop range.first).take range.getSize

/-- The range, or the whole text where it is not valid. -/
def validOr (range : Range) (size : Nat) : Range :=
  if range.isValid then range else Range.ofSize 0 size

/-! ## Positions -/

structure GlyphPosition (K : Type) where
  position : Vector2 K
  glyphIndex : GlyphIndex

structure TextInfo (K : Type) where
  width : K
  height : K

/-- What the loops over the glyphs keep. -/
structure Layout (κ K : Type) where
  curpos : Vector2 K
  spacingremainder : K
  maxwidth : K
  prevglyph : Nat
  colorindex : Nat
  colorToAdd : Option κ
  positions : List (GlyphPosition K)
  colors : List (IndexedColor κ)

/-- The colors before the start of a range, of which the last one is kept. -/
def skipColors {κ : Type} (offset : Nat) :
    List (IndexedColor κ) → Nat → Option κ → Nat × Option κ
  | [], colorindex, colorToAdd => (colorindex, colorToAdd)
  | c :: colors, colorindex, colorToAdd =>
    if (offset : Int) ≤ c.index then (colorindex, colorToAdd)
    else skipColors offset colors (colorindex + 1) (some c.color)

/-- What rounds and cuts numbers. -/
structure Rounding (K : Type) where
  floorf : K → K
  /-- `fmod(x, 1)` -/
  fraction : K → K

namespace Layout

variable {κ K : Type}

def start (codepoints : ColoredCodepoints κ) (range : Range) (curpos : Vector2 K) (zero : K)
    (maxwidth : K) : Layout κ K :=
  let skipped := if 0 < range.getOffset then skipColors range.getOffset codepoints.colors 0 none
    else (0, none)
  { curpos
    spacingremainder := zero
    maxwidth
    prevglyph := 0
    colorindex := skipped.1
    colorToAdd := skipped.2
    positions := []
    colors := [] }

/-- The color that starts at a codepoint. -/
def meetColor (codepoints : ColoredCodepoints κ) (index : Nat) (s : Layout κ K) : Layout κ K :=
  match codepoints.colors[s.colorindex]? with
  | some c =>
    if c.index = index then
      { s with colorToAdd := some c.color, colorindex := s.colorindex + 1 }
    else s
  | none => s

/-- A color is added when there is a glyph for it. -/
def flushColor (s : Layout κ K) : Layout κ K :=
  match s.colorToAdd with
  | some color => { s with colors := s.colors ++ [⟨color, s.positions.length⟩], colorToAdd := none }
  | none => s

def push (position : GlyphPosition K) (s : Layout κ K) : Layout κ K :=
  { s with positions := s.positions ++ [position] }

variable [Zero K] [Add K] [LinearOrder K]

def breakLine (offset : Vector2 K) (combinedHeight : K) (s : Layout κ K) : Layout κ K :=
  { s with
    maxwidth := max s.maxwidth s.curpos.x
    curpos := ⟨offset.x, s.curpos.y + combinedHeight⟩ }

/-- The extra spacing of a space. -/
def space (rounding : Rounding K) (extraspacing : K) (g : Nat) (s : Layout κ K) : Layout κ K :=
  if g = 32 ∧ extraspacing ≠ 0 then
    let remainder := s.spacingremainder + rounding.fraction extraspacing
    { s with
      curpos := ⟨s.curpos.x + (rounding.floorf extraspacing + rounding.floorf remainder),
        s.curpos.y⟩
      spacingremainder := rounding.fraction remainder }
  else s

end Layout

/-! ## The scan for a break -/

/-- What the scan reads of an item: a codepoint, or a glyph of HarfBuzz. -/
structure ScanItem (K : Type) where
  index : Nat
  codepoint : Nat
  /-- The width with the item, from the codepoint before and the width without it. -/
  widen : Nat → K → K

structure WrapScan (K : Type) where
  prev : Nat
  w : K
  outwidth : K
  widthbeforelastspace : K
  firstindexafterspace : Option Nat

/-- The loop of `computeWordWrapIndex`: a break index and a width. Widths are compared and given
as `measure` has them. -/
def scanLoop {K : Type} [LinearOrder K] (measure : K → K) (range : Range) (wraplimit : K) :
    List (ScanItem K) → WrapScan K → Nat × K
  | [], s => (range.last + 1, measure s.outwidth)
  | item :: items, s =>
    if item.codepoint = carriageReturn then
      scanLoop measure range wraplimit items { s with prev := item.codepoint }
    else
      let newwidth := item.widen s.prev s.w
      if isWhitespace item.codepoint then
        scanLoop measure range wraplimit items
          { s with
            widthbeforelastspace :=
              if isWhitespace s.prev then s.widthbeforelastspace else s.w
            w := newwidth
            prev := item.codepoint }
      else
        let firstindexafterspace :=
          if isWhitespace s.prev then some item.index else s.firstindexafterspace
        if wraplimit < measure newwidth then
          match firstindexafterspace with
          | some index => (index, measure s.widthbeforelastspace)
          | none =>
            (if range.first < item.index then item.index else range.first + 1,
              measure s.outwidth)
        else
          scanLoop measure range wraplimit items
            { s with
              outwidth := newwidth
              w := newwidth
              firstindexafterspace
              prev := item.codepoint }

/-- The scan before it has seen anything. -/
def WrapScan.start {K : Type} (zero : K) : WrapScan K := ⟨0, zero, zero, zero, none⟩

/-- What `computeGlyphPositions` gives. -/
structure Shaped (κ K : Type) where
  positions : List (GlyphPosition K)
  colors : List (IndexedColor κ)
  width : K
  height : K

/-! ## `GenericShaper` -/

structure GenericShaper (K : Type) extends Rounding K where
  getKerning : Nat → Nat → K
  getGlyphAdvance : Nat → K
  glyphIndex : Nat → GlyphIndex
  combinedHeight : K
  baseline : K
  trueType : Bool

namespace GenericShaper

variable {κ K : Type} [Zero K] [Add K] [LinearOrder K] (shaper : GenericShaper K)

/-- A codepoint, in `computeGlyphPositions` -/
def step (codepoints : ColoredCodepoints κ) (offset : Vector2 K) (extraspacing : K)
    (s : Layout κ K) (item : Nat × Nat) : Layout κ K :=
  let g := item.1
  let s := s.meetColor codepoints item.2
  if g = newline then
    { s.breakLine offset shaper.combinedHeight with prevglyph := 0 }
  else if g = carriageReturn then { s with prevglyph := g }
  else
    let s := s.flushColor
    let x := s.curpos.x + shaper.getKerning s.prevglyph g
    let s := s.push ⟨⟨x, s.curpos.y⟩, shaper.glyphIndex g⟩
    let s := { s with curpos := ⟨x + shaper.getGlyphAdvance g, s.curpos.y⟩ }
    { s.space shaper.toRounding extraspacing g with prevglyph := g }

def computeGlyphPositions [Sub K] (codepoints : ColoredCodepoints κ) (range : Range)
    (offset : Vector2 K) (extraspacing : K) : Shaped κ K :=
  let range := validOr range codepoints.cps.length
  let offset := if shaper.trueType then ⟨offset.x, offset.y + shaper.baseline⟩ else offset
  let s := (codepointsOf codepoints.cps range).foldl (shaper.step codepoints offset extraspacing)
    (Layout.start codepoints range offset 0 0)
  let maxwidth := max s.maxwidth s.curpos.x
  let height := s.curpos.y - offset.y
  { positions := s.positions
    colors := s.colors
    width := maxwidth - offset.x
    height := if offset.x < s.curpos.x then height + shaper.combinedHeight else height }

/-- What the scan reads of a codepoint. -/
def scanItem (item : Nat × Nat) : ScanItem K where
  index := item.2
  codepoint := item.1
  widen prev w := w + shaper.getKerning prev item.1 + shaper.getGlyphAdvance item.1

def computeWordWrapIndex (codepoints : ColoredCodepoints κ) (range : Range) (wraplimit : K) :
    Nat × K :=
  let range := validOr range codepoints.cps.length
  scanLoop id range wraplimit ((codepointsOf codepoints.cps range).map shaper.scanItem)
    (WrapScan.start 0)

end GenericShaper

/-! ## `HarfbuzzShaper` -/

/-- `hb_glyph_info_t` and `hb_glyph_position_t`, in 26.6 fixed point -/
structure HbGlyph where
  codepoint : Nat
  cluster : Nat
  x_offset : Int
  y_offset : Int
  x_advance : Int
  y_advance : Int

/-- `hb_direction_t` -/
inductive HbDirection
  | ltr
  | rtl
  | ttb
  | btt
  deriving DecidableEq

def HbDirection.isHorizontal : HbDirection → Bool
  | .ltr | .rtl => true
  | .ttb | .btt => false

/-- `hb_buffer_t`, after `hb_shape` -/
structure HbBuffer where
  glyphs : List HbGlyph
  direction : HbDirection

/-- With a font for each rasterizer, of which there is at least one. -/
structure HarfbuzzShaper (K : Type) extends Rounding K where
  fallbacks : Nat
  /-- What `hb_shape` makes of ranges of codepoints with a font. -/
  shape : Nat → List Nat → List Range → HbBuffer
  usingSpacesForTab : Bool
  spaceGlyphIndex : GlyphIndex
  tabSpacesAdvanceX : Int
  tabSpacesAdvanceY : Int
  combinedHeight : K
  baseline : K
  fixed26_6ToFloat : Int → K
  dpiScaleInverse : K
  snapToPixel : K → K

structure BufferRange where
  index : Nat
  codepointStart : Nat
  range : Range
  deriving DecidableEq

/-- The order of `std::sort` -/
def BufferRange.before (a b : BufferRange) : Bool :=
  if a.codepointStart ≠ b.codepointStart then a.codepointStart < b.codepointStart
  else if a.index ≠ b.index then a.index < b.index
  else a.range.first < b.range.first

/-- A glyph goes on with the last range, or starts one. -/
def extendRanges (index i cluster : Nat) (contiguous : Bool) (bufferranges : List BufferRange) :
    List BufferRange :=
  match bufferranges.getLast? with
  | some back =>
    if back.index = index ∧ back.range.last + 1 = i ∧ contiguous = true then
      bufferranges.dropLast ++ [{ back with range := ⟨back.range.first, back.range.last + 1⟩ }]
    else bufferranges ++ [⟨index, cluster, Range.ofSize i 1⟩]
  | none => [⟨index, cluster, Range.ofSize i 1⟩]

/-- A part of a buffer. -/
structure HbRun where
  index : Nat
  direction : HbDirection
  glyphs : List HbGlyph

namespace HarfbuzzShaper

variable {κ K : Type} (shaper : HarfbuzzShaper K)

def isValidGlyph (glyphindex : Nat) (codepoints : List Nat) (codepointindex : Nat) : Bool :=
  if glyphindex ≠ 0 then true
  else
    let codepoint := codepoints.getD codepointindex 0
    codepoint = newline || codepoint = carriageReturn ||
      (codepoint = 9 && shaper.usingSpacesForTab)

/-- The ranges of glyphs so far, and those of codepoints for the next font. -/
structure Fallbacks where
  bufferranges : List BufferRange
  fallbackranges : List Range

/-- A glyph of a buffer, after the one before it. -/
def placeGlyph (cps : List Nat) (direction : HbDirection) (rasti i : Nat)
    (before : Option HbGlyph) (info : HbGlyph) (s : Fallbacks) : Fallbacks :=
  let contiguous :=
    match before with
    | none => true
    | some prev => info.cluster = prev.cluster + 1 || info.cluster = prev.cluster
  if shaper.isValidGlyph info.codepoint cps info.cluster then
    { s with bufferranges := extendRanges rasti i info.cluster contiguous s.bufferranges }
  else if rasti = shaper.fallbacks then
    -- no font has it, and it is left to the first one
    { s with bufferranges := extendRanges 0 i info.cluster contiguous s.bufferranges }
  else
    match s.fallbackranges.getLast?, before with
    | some back, some prev =>
      if (if direction = .rtl then back.first else back.last) ≠ prev.cluster then
        { s with fallbackranges := s.fallbackranges ++ [Range.ofSize info.cluster 1] }
      else
        { s with
          fallbackranges := s.fallbackranges.dropLast ++ [back.encapsulate info.cluster] }
    | _, _ => { s with fallbackranges := s.fallbackranges ++ [Range.ofSize info.cluster 1] }

/-- The loop over the glyphs of a buffer. -/
def glyphLoop (cps : List Nat) (direction : HbDirection) (rasti : Nat) :
    List HbGlyph → Nat → Option HbGlyph → Fallbacks → Fallbacks
  | [], _, _, s => s
  | info :: glyphs, i, before, s =>
    glyphLoop cps direction rasti glyphs (i + 1) (some info)
      (shaper.placeGlyph cps direction rasti i before info s)

/-- The loop over the rasterizers, with their buffers. -/
def rasterizerLoop (cps : List Nat) :
    Nat → Nat → Fallbacks → List HbBuffer → List BufferRange × List HbBuffer
  | 0, _, s, buffers => (s.bufferranges, buffers)
  | left + 1, rasti, s, buffers =>
    let buffer := shaper.shape rasti cps s.fallbackranges
    rasterizerLoop cps left (rasti + 1)
      (shaper.glyphLoop cps buffer.direction rasti buffer.glyphs 0 none ⟨s.bufferranges, []⟩)
      (buffers ++ [buffer])

/-- The glyphs of a range, or nothing where it goes beyond its buffer. -/
def resolve (buffers : List HbBuffer) (r : BufferRange) : Option HbRun :=
  match buffers[r.index]? with
  | none => none
  | some buffer =>
    if r.range.last < buffer.glyphs.length then
      some ⟨r.index, buffer.direction,
        (buffer.glyphs.drop r.range.first).take r.range.getSize⟩
    else none

/-- The runs of glyphs, if the ranges that `computeBufferRanges` makes are in the buffers. The
range of an empty buffer is not. -/
def computeBufferRanges (cps : List Nat) (range : Range) : Option (List HbRun) :=
  if cps = [] then some []
  else if shaper.fallbacks = 0 then
    let buffer := shaper.shape 0 cps [range]
    if buffer.glyphs = [] then none else some [⟨0, buffer.direction, buffer.glyphs⟩]
  else
    let made := shaper.rasterizerLoop cps (shaper.fallbacks + 1) 0 ⟨[], [range]⟩ []
    (made.1.mergeSort fun a b => !b.before a).mapM (resolve made.2)

/-- A glyph with the advance of a tab, where it is one. -/
def withTab (cps : List Nat) (direction : HbDirection) (glyph : HbGlyph) : HbGlyph :=
  if cps.getD glyph.cluster 0 = 9 ∧ shaper.usingSpacesForTab = true then
    { glyph with
      x_offset := 0
      y_offset := 0
      x_advance := if direction.isHorizontal then shaper.tabSpacesAdvanceX else 0
      y_advance := if direction.isHorizontal then 0 else shaper.tabSpacesAdvanceY }
  else glyph

variable [Zero K] [Add K] [Mul K] [LinearOrder K]

/-- A glyph, in `computeGlyphPositions` -/
def step (codepoints : ColoredCodepoints κ) (offset : Vector2 K) (extraspacing : K)
    (run : HbRun) (s : Layout κ K) (info : HbGlyph) : Layout κ K :=
  let s := s.meetColor codepoints info.cluster
  let clustercodepoint := codepoints.cps.getD info.cluster 0
  if clustercodepoint = newline then s.breakLine offset shaper.combinedHeight
  else if clustercodepoint = carriageReturn then s
  else
    let tab := clustercodepoint = 9 ∧ shaper.usingSpacesForTab = true
    let gindex := if tab then shaper.spaceGlyphIndex else ⟨info.codepoint, run.index⟩
    let glyphpos := shaper.withTab codepoints.cps run.direction info
    let s := s.flushColor
    let x := s.curpos.x + shaper.fixed26_6ToFloat glyphpos.x_offset * shaper.dpiScaleInverse
    let y := s.curpos.y + shaper.fixed26_6ToFloat glyphpos.y_offset * shaper.dpiScaleInverse
    let s := s.push ⟨⟨shaper.snapToPixel x, shaper.snapToPixel y⟩, gindex⟩
    let s := { s with
      curpos := ⟨s.curpos.x + shaper.fixed26_6ToFloat glyphpos.x_advance * shaper.dpiScaleInverse,
        s.curpos.y + shaper.fixed26_6ToFloat glyphpos.y_advance * shaper.dpiScaleInverse⟩ }
    s.space shaper.toRounding extraspacing clustercodepoint

def computeGlyphPositions [Sub K] (codepoints : ColoredCodepoints κ) (range : Range)
    (offset : Vector2 K) (extraspacing : K) : Option (Shaped κ K) :=
  let range := if codepoints.cps = [] then range else validOr range codepoints.cps.length
  let offset : Vector2 K := ⟨offset.x, offset.y + shaper.baseline⟩
  match shaper.computeBufferRanges codepoints.cps range with
  | none => none
  | some runs =>
    let s := runs.foldl
      (fun s run => run.glyphs.foldl (shaper.step codepoints offset extraspacing run) s)
      (Layout.start codepoints range offset 0 offset.x)
    let maxwidth := max s.maxwidth s.curpos.x
    let height := shaper.snapToPixel (s.curpos.y - offset.y)
    some
      { positions := s.positions
        colors := s.colors
        width := shaper.snapToPixel (maxwidth - offset.x)
        height := if offset.x < s.curpos.x then height + shaper.combinedHeight else height }

/-- What the scan reads of a glyph. -/
def scanItem (cps : List Nat) (run : HbRun) (glyph : HbGlyph) : ScanItem K where
  index := glyph.cluster
  codepoint := cps.getD glyph.cluster 0
  widen _ w := w + shaper.fixed26_6ToFloat (shaper.withTab cps run.direction glyph).x_advance *
    shaper.dpiScaleInverse

def computeWordWrapIndex (codepoints : ColoredCodepoints κ) (range : Range) (wraplimit : K) :
    Option (Nat × K) :=
  let range := validOr range codepoints.cps.length
  match shaper.computeBufferRanges codepoints.cps range with
  | none => none
  | some runs =>
    some (scanLoop shaper.snapToPixel range wraplimit
      (runs.flatMap fun run => run.glyphs.map (shaper.scanItem codepoints.cps run))
      (WrapScan.start 0))

end HarfbuzzShaper

/-! ## Wrapping -/

/-- The index of the first newline, or the length of the text. -/
def findNewline (cps : List Nat) (start : Nat) : Nat :=
  start + ((cps.drop start).takeWhile (· ≠ newline)).length

/-- A line, from `getWrap`. -/
structure WrappedLine (K : Type) where
  range : Range
  width : K
  deriving DecidableEq

/-- The loop of `getWrap`, which nothing is left of but a fault of the shaper. It may take one
turn for each codepoint. -/
def wrapLoop {K : Type} [Zero K] (cps : List Nat) (computeWordWrapIndex : Range → Option (Nat × K)) :
    Nat → Nat → Nat → List (WrappedLine K) → Option (List (WrappedLine K))
  | 0, i, _, lines => if i < cps.length then none else some lines
  | left + 1, i, nextnewline, lines =>
    if i < cps.length then
      let nextnewline := if nextnewline < i then findNewline cps i else nextnewline
      if nextnewline = i then
        wrapLoop cps computeWordWrapIndex left (i + 1) nextnewline (lines ++ [⟨.invalid, 0⟩])
      else
        match computeWordWrapIndex (Range.ofSize i (nextnewline - i)) with
        | none => none
        | some (wrapindex, width) =>
          let r := if i < wrapindex then Range.ofSize i (wrapindex - i) else .invalid
          let i := if i < wrapindex then wrapindex else i + 1
          -- the newline behind the line is skipped
          let i := if nextnewline = i then i + 1 else i
          wrapLoop cps computeWordWrapIndex left i nextnewline (lines ++ [⟨r, width⟩])
    else some lines

/-- The ranges and widths of the lines of a text. -/
def getWrap {K : Type} [Zero K] (cps : List Nat)
    (computeWordWrapIndex : Range → Option (Nat × K)) : Option (List (WrappedLine K)) :=
  wrapLoop cps computeWordWrapIndex cps.length 0 (findNewline cps 0) []

end Lhatove.Font
