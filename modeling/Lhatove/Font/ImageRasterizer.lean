import Lhatove.Font.GlyphData
import Lhatove.Image.ImageData
import Lhatove.Lib.Runs
import Lhatove.Lib.Tables

/-!
# Image fonts

`love::font::ImageRasterizer`: glyphs that are columns of an image, with a color
between them.

- The pixels of the image may be set after the rasterizer is made, so that they are an
  argument of `getGlyphDataForIndex`. Its size stays.
- An image has a pixel at least.
- `CutsExactly`: the glyphs are the runs of columns, and their data is what they should be;
- `newImageRasterizer_cutsExactly_iff`: when that is so.
-/

namespace Lhatove.Font

open Image (ImageData)

/-- `Color32`: four bytes -/
abbrev Color32 := List Byte

/-- The pixel at an index, of four bytes. -/
def color (imageData : ImageData) (index : Nat) : Color32 :=
  (imageData.data.drop (4 * index)).take 4

/-- `pixels[index]` -/
def readPixel (imageData : ImageData) (index : Nat) : Except GlyphFault Color32 :=
  if 4 * index + 4 ≤ imageData.data.length then .ok (color imageData index)
  else .error .outOfBounds

/-! ## Loading -/

structure ImageGlyphData where
  x : Nat
  width : Nat
  glyph : BitVec 32
  deriving DecidableEq

structure ImageRasterizer where
  numglyphs : Int
  extraSpacing : Int
  /-- `metrics.height` -/
  height : Nat
  /-- `metrics.advance` -/
  advance : Int
  imageGlyphs : List ImageGlyphData
  glyphIndices : Table (BitVec 32) Nat
  spacer : Color32

/-- `++i` while the pixel is `wanted`, `k` times at most. -/
def scanWhile (imageData : ImageData) (wanted : Color32 → Bool) :
    Nat → Nat → Except GlyphFault Nat
  | 0, i => .ok i
  | k + 1, i => do
    let p ← readPixel imageData i
    if wanted p then scanWhile imageData wanted k (i + 1) else .ok i

/-- A glyph at the end of the array. -/
def ImageRasterizer.push (r : ImageRasterizer) (imageGlyph : ImageGlyphData) : ImageRasterizer :=
  { r with
    imageGlyphs := r.imageGlyphs ++ [imageGlyph]
    glyphIndices := r.glyphIndices.insert imageGlyph.glyph r.imageGlyphs.length
    advance := max r.advance (imageGlyph.width + r.extraSpacing) }

/-- The loop of `load`, from the position at which the last glyph ended. -/
def loadLoop (imageData : ImageData) :
    List (BitVec 32) → Nat → ImageRasterizer → Except GlyphFault ImageRasterizer
  | [], _, r => .ok r
  | glyph :: glyphs, stop, r => do
    let imgw := imageData.width
    -- where the character starts, and where it ends
    let start ← scanWhile imageData (fun p => p = r.spacer) (imgw - stop) stop
    let stop ← scanWhile imageData (fun p => p ≠ r.spacer) (imgw - start) start
    if stop ≤ start then .ok r
    else if 2 ^ 31 ≤ ((stop - start : Nat) : Int) + r.extraSpacing then .error .overflow
    else loadLoop imageData glyphs stop (r.push ⟨start, stop - start, glyph⟩)

/-- `load`, with the null glyph first -/
def load (imageData : ImageData) (glyphs : List (BitVec 32)) (numglyphs extraSpacing : Int) :
    Except GlyphFault ImageRasterizer := do
  let spacer ← readPixel imageData 0
  loadLoop imageData glyphs 0
    { numglyphs, extraSpacing, spacer
      height := imageData.height
      advance := 0
      imageGlyphs := [⟨0, 0, 0⟩]
      glyphIndices := AList.insert 0 0 ∅ }

/-- The constructor. -/
def newImageRasterizer (imageData : ImageData) (glyphs : List (BitVec 32))
    (extraspacing : Int) : Except GlyphFault ImageRasterizer :=
  if imageData.format ≠ .rgba8 then
    .error (.exception "Only 32-bit RGBA images are supported in Image Fonts!")
  else if 2 ^ 31 ≤ glyphs.length + 1 then .error .overflow
  else load imageData glyphs (glyphs.length + 1) extraspacing

/-! ## Glyphs -/

namespace ImageRasterizer

def getGlyphIndex (r : ImageRasterizer) (glyph : BitVec 32) : Nat :=
  (r.glyphIndices.lookup glyph).getD 0

/-- The glyph at an index, if there is one. -/
def entry (r : ImageRasterizer) (index : Int) : Option ImageGlyphData :=
  if 0 ≤ index ∧ index < r.imageGlyphs.length then r.imageGlyphs[index.toNat]? else none

/-- Transparency instead of the spacer color. -/
def clear (r : ImageRasterizer) (p : Color32) : Color32 :=
  if p = r.spacer then [0, 0, 0, 0] else p

/-- The copy of pixel `i` of a glyph. -/
def copyPixel (r : ImageRasterizer) (imageData : ImageData) (x width i : Nat) :
    Except GlyphFault Color32 := do
  let index := x + i % width + imageData.width * (i / width)
  if 2 ^ 31 ≤ index then .error .overflow
  else
    let p ← readPixel imageData index
    .ok (r.clear p)

/-- The loop that copies, for the `k` pixels from `i` on. -/
def copyPixels (r : ImageRasterizer) (imageData : ImageData) (x width : Nat) :
    Nat → Nat → Except GlyphFault (List Color32)
  | 0, _ => .ok []
  | k + 1, i => do
    let p ← r.copyPixel imageData x width i
    let rest ← copyPixels r imageData x width k (i + 1)
    .ok (p :: rest)

def getGlyphDataForIndex (r : ImageRasterizer) (imageData : ImageData) (index : Int) :
    Except GlyphFault (GlyphData Color32) := do
  let g := (r.entry index).getD ⟨0, 0, 0⟩
  let advance := match r.entry index with
    | some g => g.width + r.extraSpacing
    | none => 0
  let gm : GlyphMetrics := { height := r.height, width := g.width, advance }
  let pixels ← gm.allocate
  if g.width = 0 then .ok ⟨g.glyph, gm, []⟩
  else
    let data ← r.copyPixels imageData g.x g.width pixels 0
    .ok ⟨g.glyph, gm, data⟩

end ImageRasterizer

/-! ## What is right -/

/-- The pixel at the top of a column is not the spacer. -/
def inGlyph (imageData : ImageData) (column : Nat) : Bool :=
  color imageData column ≠ color imageData 0

/-- The data of a glyph: its columns, with transparency instead of the spacer. -/
structure GlyphData.Copies (d : GlyphData Color32) (r : ImageRasterizer) (now : ImageData)
    (g : ImageGlyphData) : Prop where
  glyph : d.glyph = g.glyph
  metrics : d.metrics = ⟨now.height, g.width, g.width + r.extraSpacing, 0, 0⟩
  size : d.data.length = g.width * now.height
  pixel : ∀ row < now.height, ∀ column < g.width, d.data[row * g.width + column]? =
    some (r.clear (color now (row * now.width + (g.x + column))))

/-- **The font is cut exactly.** Glyph `i` is the run of columns before which `i` others
begin; runs are apart; and glyph data, for any pixels that the image has by then, is that
of the columns. There is a result, hence no access out of bounds. -/
structure CutsExactly (imageData : ImageData) (glyphs : List (BitVec 32))
    (r : ImageRasterizer) : Prop where
  spacer : r.spacer = color imageData 0
  null : r.imageGlyphs[0]? = some ⟨0, 0, 0⟩
  runs : ∀ i x width glyph, r.imageGlyphs[i + 1]? = some ⟨x, width, glyph⟩ ↔
    glyphs[i]? = some glyph ∧ IsRun (inGlyph imageData) imageData.width x (x + width) ∧
      runIndex (inGlyph imageData) x = i
  apart : ∀ i j g g', i < j → r.imageGlyphs[i + 1]? = some g →
    r.imageGlyphs[j + 1]? = some g' → g.x + g.width < g'.x
  data : ∀ now : ImageData, now.format = imageData.format → now.width = imageData.width →
    now.height = imageData.height → ∀ index,
      match r.entry index with
      | some g => ∃ d, r.getGlyphDataForIndex now index = .ok d ∧ d.Copies r now g
      | none => r.getGlyphDataForIndex now index = .ok ⟨0, ⟨now.height, 0, 0, 0, 0⟩, []⟩

/-- The glyphs whose columns there are. -/
def Cut (imageData : ImageData) (glyphs : List (BitVec 32)) (x width : Nat) : Prop :=
  IsRun (inGlyph imageData) imageData.width x (x + width) ∧
    runIndex (inGlyph imageData) x < glyphs.length

/-- The numbers that are computed are `int`s: the number of glyphs, and for each glyph that
is cut its advance, and the index of its last pixel. -/
structure Fits (imageData : ImageData) (glyphs : List (BitVec 32)) (extraspacing : Int) :
    Prop where
  numglyphs : glyphs.length + 1 < 2 ^ 31
  advance : ∀ x width, Cut imageData glyphs x width → (width : Int) + extraspacing < 2 ^ 31
  last : ∀ x width, Cut imageData glyphs x width →
    x + (width - 1) + imageData.width * (imageData.height - 1) < 2 ^ 31

/-! ## Reading -/

section

variable {imageData : ImageData} (hformat : imageData.format = .rgba8)

include hformat

theorem readPixel_eq {index : Nat} (h : index < imageData.width * imageData.height) :
    readPixel imageData index = .ok (color imageData index) := by
  have hsize := imageData.size_eq
  rw [hformat, Image.UnormFormat.pixelSize] at hsize
  rw [readPixel, if_pos (by omega)]

theorem scanWhile_eq {wanted : Color32 → Bool} {k i : Nat}
    (h : i + k ≤ imageData.width * imageData.height) :
    scanWhile imageData wanted k i =
      .ok (scan (fun j => wanted (color imageData j)) k i) := by
  induction k generalizing i with
  | zero => rfl
  | succ k ih =>
    rw [scanWhile, readPixel_eq hformat (by omega), scan]
    simp only [Except.bind, bind]
    split_ifs with hwanted
    · exact ih (by omega)
    · rfl

end

/-! ## The loop of `load` -/

namespace ImageRasterizer

@[simp] theorem push_spacer (r : ImageRasterizer) (g : ImageGlyphData) :
    (r.push g).spacer = r.spacer := rfl

@[simp] theorem push_extraSpacing (r : ImageRasterizer) (g : ImageGlyphData) :
    (r.push g).extraSpacing = r.extraSpacing := rfl

@[simp] theorem push_height (r : ImageRasterizer) (g : ImageGlyphData) :
    (r.push g).height = r.height := rfl

@[simp] theorem push_imageGlyphs (r : ImageRasterizer) (g : ImageGlyphData) :
    (r.push g).imageGlyphs = r.imageGlyphs ++ [g] := rfl

/-- Glyphs at the end of the array, and nothing else that glyph data is made of. -/
theorem foldl_push (r : ImageRasterizer) (gs : List ImageGlyphData) :
    (gs.foldl push r).imageGlyphs = r.imageGlyphs ++ gs ∧
      (gs.foldl push r).spacer = r.spacer ∧ (gs.foldl push r).height = r.height ∧
      (gs.foldl push r).extraSpacing = r.extraSpacing := by
  induction gs generalizing r with
  | nil => simp
  | cons g gs ih =>
    rw [List.foldl_cons]
    obtain ⟨hglyphs, hspacer, hheight, hspacing⟩ := ih (r.push g)
    exact ⟨by rw [hglyphs]; simp, hspacer, hheight, hspacing⟩

end ImageRasterizer

/-- The glyphs of the runs that are found from a position on. -/
def cutGlyphs (imageData : ImageData) (glyphs : List (BitVec 32)) (stop : Nat) :
    List ImageGlyphData :=
  List.zipWith (fun run glyph => ⟨run.1, run.2 - run.1, glyph⟩)
    (cutRuns (inGlyph imageData) imageData.width glyphs.length stop) glyphs

theorem loadLoop_spec {imageData : ImageData} (hformat : imageData.format = .rgba8)
    (hh : 0 < imageData.height) {glyphs : List (BitVec 32)} {stop : Nat} {r : ImageRasterizer}
    (hstop : stop ≤ imageData.width) (hspacer : r.spacer = color imageData 0) :
    ((∀ g ∈ cutGlyphs imageData glyphs stop, (g.width : Int) + r.extraSpacing < 2 ^ 31) →
      loadLoop imageData glyphs stop r =
        .ok ((cutGlyphs imageData glyphs stop).foldl ImageRasterizer.push r)) ∧
    ((∃ g ∈ cutGlyphs imageData glyphs stop, 2 ^ 31 ≤ (g.width : Int) + r.extraSpacing) →
      loadLoop imageData glyphs stop r = .error .overflow) := by
  have hrow : imageData.width ≤ imageData.width * imageData.height :=
    Nat.le_mul_of_pos_right _ hh
  induction glyphs generalizing stop r with
  | nil => simp [loadLoop, cutGlyphs, cutRuns]
  | cons glyph glyphs ih =>
    have hskip : (fun j => decide (color imageData j = r.spacer)) =
        fun j => !inGlyph imageData j := by
      funext j
      simp [inGlyph, hspacer]
    have hglyph : (fun j => decide (color imageData j ≠ r.spacer)) = inGlyph imageData := by
      funext j
      rw [hspacer, inGlyph]
    have hle := scan_le (fun j => !inGlyph imageData j) (imageData.width - stop) stop
    rw [loadLoop, cutGlyphs, List.length_cons, cutRuns]
    simp only [scanWhile_eq hformat (show stop + (imageData.width - stop) ≤ _ by omega), hskip,
      Except.bind, bind]
    generalize scan (fun j => !inGlyph imageData j) (imageData.width - stop) stop = s at hle ⊢
    have hend := scan_le (inGlyph imageData) (imageData.width - s) s
    simp only [scanWhile_eq hformat (show s + (imageData.width - s) ≤ _ by omega), hglyph]
    generalize scan (inGlyph imageData) (imageData.width - s) s = e at hend ⊢
    by_cases hnone : e ≤ s
    · rw [if_pos hnone, if_pos hnone]
      simp
    · rw [if_neg hnone, if_neg hnone]
      simp only [List.zipWith_cons_cons, List.forall_mem_cons, List.foldl_cons]
      have hpushed : (r.push ⟨s, e - s, glyph⟩).spacer = color imageData 0 := hspacer
      have he : e ≤ imageData.width := by omega
      obtain ⟨hok, herror⟩ := ih he hpushed
      constructor
      · rintro ⟨hfit, hfits⟩
        rw [if_neg (not_le.mpr hfit)]
        exact hok hfits
      · rintro ⟨g, hmem, hlarge⟩
        split_ifs with hfirst
        · rfl
        · rcases List.mem_cons.mp hmem with rfl | hrest
          · exact absurd hlarge hfirst
          · exact herror ⟨g, hrest, hlarge⟩

theorem cutGlyphs_getElem? {imageData : ImageData} {glyphs : List (BitVec 32)} {i x width : Nat}
    {glyph : BitVec 32} :
    (cutGlyphs imageData glyphs 0)[i]? = some ⟨x, width, glyph⟩ ↔
      glyphs[i]? = some glyph ∧ IsRun (inGlyph imageData) imageData.width x (x + width) ∧
        runIndex (inGlyph imageData) x = i := by
  have hruns := fun s e => @cutRuns_getElem? (inGlyph imageData) imageData.width glyphs.length 0
    (Nat.zero_le _) (.inl rfl) i s e
  simp only [runIndex, Nat.count_zero, Nat.zero_add] at hruns
  rw [cutGlyphs, List.getElem?_zipWith_eq_some]
  constructor
  · rintro ⟨⟨s, e⟩, glyph', hrun, hglyph, heq⟩
    obtain ⟨hi, hrun, hindex⟩ := (hruns s e).mp hrun
    simp only [ImageGlyphData.mk.injEq] at heq
    obtain ⟨rfl, rfl, rfl⟩ := heq
    have hle := le_of_lt hrun.nonempty
    rw [Nat.add_sub_cancel' hle]
    exact ⟨hglyph, hrun, hindex⟩
  · rintro ⟨hglyph, hrun, hindex⟩
    have hi : i < glyphs.length := List.getElem?_eq_some_iff.mp hglyph |>.1
    exact ⟨(x, x + width), glyph, (hruns _ _).mpr ⟨hi, hrun, hindex⟩, hglyph, by simp⟩

theorem mem_cutGlyphs {imageData : ImageData} {glyphs : List (BitVec 32)} {x width : Nat} :
    (∃ glyph, (⟨x, width, glyph⟩ : ImageGlyphData) ∈ cutGlyphs imageData glyphs 0) ↔
      Cut imageData glyphs x width := by
  constructor
  · rintro ⟨glyph, hmem⟩
    obtain ⟨i, hi⟩ := List.mem_iff_getElem?.mp hmem
    obtain ⟨hglyph, hrun, hindex⟩ := cutGlyphs_getElem?.mp hi
    refine ⟨hrun, ?_⟩
    rw [hindex]
    exact (List.getElem?_eq_some_iff.mp hglyph).1
  · rintro ⟨hrun, hlt⟩
    refine ⟨glyphs[runIndex (inGlyph imageData) x], ?_⟩
    refine List.mem_iff_getElem?.mpr ⟨_, cutGlyphs_getElem?.mpr ⟨?_, hrun, rfl⟩⟩
    exact List.getElem?_eq_getElem hlt

/-! ## The copy of a glyph -/

namespace ImageRasterizer

variable {r : ImageRasterizer} {now : ImageData} {x width : Nat}

theorem copyPixel_eq (hformat : now.format = .rgba8) {i : Nat} (hw : 0 < width)
    (hin : x + width ≤ now.width) (hi : i < width * now.height) :
    r.copyPixel now x width i =
      if 2 ^ 31 ≤ x + i % width + now.width * (i / width) then .error .overflow
      else .ok (r.clear (color now (x + i % width + now.width * (i / width)))) := by
  have hcolumn := Nat.mod_lt i hw
  have hrow : i / width < now.height := Nat.div_lt_of_lt_mul hi
  have hindex : x + i % width + now.width * (i / width) < now.width * now.height := by
    calc x + i % width + now.width * (i / width)
        < now.width + now.width * (i / width) := by omega
      _ = now.width * (i / width + 1) := by ring
      _ ≤ now.width * now.height := Nat.mul_le_mul_left _ hrow
  rw [copyPixel]
  split_ifs with hlarge
  · rfl
  · rw [readPixel_eq hformat hindex]
    rfl

theorem index_le {i : Nat} (hw : 0 < width) (hi : i < width * now.height) :
    x + i % width + now.width * (i / width) ≤ x + (width - 1) + now.width * (now.height - 1) := by
  have hcolumn := Nat.mod_lt i hw
  have hrow : i / width ≤ now.height - 1 := by
    have := Nat.div_lt_of_lt_mul hi
    omega
  have := Nat.mul_le_mul_left now.width hrow
  omega

/-- The pixels are copied if the last index is an `int`. -/
theorem copyPixels_eq (hformat : now.format = .rgba8) (hw : 0 < width)
    (hin : x + width ≤ now.width)
    (hlast : x + (width - 1) + now.width * (now.height - 1) < 2 ^ 31) {k i : Nat}
    (hi : i + k ≤ width * now.height) :
    r.copyPixels now x width k i = .ok ((List.range' i k).map fun j =>
      r.clear (color now (x + j % width + now.width * (j / width)))) := by
  induction k generalizing i with
  | zero => rfl
  | succ k ih =>
    have hindex := @index_le now x width i hw (by omega)
    rw [copyPixels, copyPixel_eq hformat hw hin (by omega), if_neg (by omega), ih (by omega)]
    rfl

/-- They are not if it is not. -/
theorem not_copyPixels (hformat : now.format = .rgba8) (hw : 0 < width)
    (hin : x + width ≤ now.width) {k i j : Nat} (hi : i + k ≤ width * now.height)
    (hij : i ≤ j) (hj : j < i + k)
    (hlarge : 2 ^ 31 ≤ x + j % width + now.width * (j / width)) (data : List Color32) :
    r.copyPixels now x width k i ≠ .ok data := by
  induction k generalizing i data with
  | zero => omega
  | succ k ih =>
    rw [copyPixels, copyPixel_eq hformat hw hin (by omega)]
    rcases Nat.eq_or_lt_of_le hij with rfl | hnext
    · rw [if_pos hlarge]
      intro h
      cases h
    · intro h
      split_ifs at h with hfirst
      · cases h
      · cases hrest : r.copyPixels now x width k (i + 1) with
        | error fault =>
          rw [hrest] at h
          cases h
        | ok rest => exact ih (by omega) hnext (by omega) rest hrest

/-- **The data of a glyph** whose columns are in the image and whose last index is an `int`. -/
theorem getGlyphDataForIndex_entry (hformat : now.format = .rgba8) (hheight : r.height = now.height)
    {index : Int} {g : ImageGlyphData} (hentry : r.entry index = some g) (hx : 0 < g.x)
    (hw : 0 < g.width) (hh : 0 < now.height) (hin : g.x + g.width ≤ now.width)
    (hlast : g.x + (g.width - 1) + now.width * (now.height - 1) < 2 ^ 31) :
    ∃ d, r.getGlyphDataForIndex now index = .ok d ∧ d.Copies r now g := by
  have hsize : g.width * now.height < 2 ^ 31 := by
    obtain ⟨n, hn⟩ : ∃ n, now.height = n + 1 := ⟨now.height - 1, by omega⟩
    rw [hn, Nat.add_sub_cancel] at hlast
    have : g.width * n ≤ now.width * n := Nat.mul_le_mul_right _ (by omega)
    rw [hn, Nat.mul_succ]
    omega
  refine ⟨⟨g.glyph, ⟨now.height, g.width, g.width + r.extraSpacing, 0, 0⟩,
    (List.range' 0 (g.width * now.height)).map fun j =>
      r.clear (color now (g.x + j % g.width + now.width * (j / g.width)))⟩, ?_, ?_⟩
  · rw [getGlyphDataForIndex]
    simp only [hentry, Option.getD_some, hheight]
    rw [@GlyphMetrics.allocate_natCast _ g.width now.height rfl rfl, if_neg (by omega)]
    simp only [Except.bind, bind]
    rw [if_neg (by omega), copyPixels_eq hformat hw hin hlast (by omega)]
  · refine ⟨rfl, rfl, by simp, ?_⟩
    intro row hrow column hcolumn
    have hlt : row * g.width + column < g.width * now.height := by
      calc row * g.width + column < row * g.width + g.width := by omega
        _ = (row + 1) * g.width := by ring
        _ ≤ now.height * g.width := Nat.mul_le_mul_right _ hrow
        _ = g.width * now.height := Nat.mul_comm ..
    have hmod : (row * g.width + column) % g.width = column := by
      rw [Nat.mul_comm, Nat.mul_add_mod, Nat.mod_eq_of_lt hcolumn]
    have hdiv : (row * g.width + column) / g.width = row := by
      rw [Nat.mul_comm, Nat.mul_add_div hw, Nat.div_eq_of_lt hcolumn, Nat.add_zero]
    rw [List.getElem?_map, List.getElem?_range' hlt]
    simp only [Option.map_some, Nat.one_mul, Nat.zero_add, hmod, hdiv]
    rw [Nat.mul_comm now.width, Nat.add_comm (g.x + column)]

/-- There is none if its last index is not. -/
theorem not_getGlyphDataForIndex (hformat : now.format = .rgba8) (hheight : r.height = now.height)
    {index : Int} {g : ImageGlyphData} (hentry : r.entry index = some g)
    (hw : 0 < g.width) (hh : 0 < now.height) (hin : g.x + g.width ≤ now.width)
    (hlast : 2 ^ 31 ≤ g.x + (g.width - 1) + now.width * (now.height - 1)) (d : GlyphData Color32) :
    r.getGlyphDataForIndex now index ≠ .ok d := by
  intro h
  rw [getGlyphDataForIndex] at h
  simp only [hentry, Option.getD_some, hheight] at h
  rw [@GlyphMetrics.allocate_natCast _ g.width now.height rfl rfl] at h
  split at h
  · cases h
  simp only [Except.bind, bind] at h
  rw [if_neg (by omega : ¬ g.width = 0)] at h
  -- the last pixel of the glyph
  have hpos := Nat.mul_pos hw hh
  obtain ⟨n, hn⟩ : ∃ n, now.height = n + 1 := ⟨now.height - 1, by omega⟩
  have heq : g.width * now.height - 1 = g.width * n + (g.width - 1) := by
    rw [hn, Nat.mul_succ]
    omega
  have hmod : (g.width * now.height - 1) % g.width = g.width - 1 := by
    rw [heq, Nat.mul_add_mod, Nat.mod_eq_of_lt (by omega)]
  have hdiv : (g.width * now.height - 1) / g.width = now.height - 1 := by
    rw [heq, Nat.mul_add_div hw, Nat.div_eq_of_lt (by omega), hn]
    rfl
  cases hdata : r.copyPixels now g.x g.width (g.width * now.height) 0 with
  | error fault =>
    rw [hdata] at h
    cases h
  | ok data =>
    refine @not_copyPixels r now g.x g.width hformat hw hin _ 0 (g.width * now.height - 1)
      (by omega) (Nat.zero_le _) (by omega) ?_ data hdata
    rw [hmod, hdiv]
    exact hlast

end ImageRasterizer

/-! ## The font -/

/-- The rasterizer before the loop of `load`. -/
def ImageRasterizer.start (imageData : ImageData) (glyphs : List (BitVec 32))
    (extraSpacing : Int) : ImageRasterizer where
  numglyphs := glyphs.length + 1
  extraSpacing := extraSpacing
  height := imageData.height
  advance := 0
  imageGlyphs := [⟨0, 0, 0⟩]
  glyphIndices := AList.insert 0 0 ∅
  spacer := color imageData 0

/-- The rasterizer with all glyphs that are cut. -/
def ImageRasterizer.loaded (imageData : ImageData) (glyphs : List (BitVec 32))
    (extraSpacing : Int) : ImageRasterizer :=
  (cutGlyphs imageData glyphs 0).foldl push (start imageData glyphs extraSpacing)

section

variable {imageData : ImageData} {glyphs : List (BitVec 32)} {extraspacing : Int}

theorem loaded_imageGlyphs : (ImageRasterizer.loaded imageData glyphs extraspacing).imageGlyphs =
    ⟨0, 0, 0⟩ :: cutGlyphs imageData glyphs 0 :=
  (ImageRasterizer.foldl_push _ _).1

theorem loaded_spacer :
    (ImageRasterizer.loaded imageData glyphs extraspacing).spacer = color imageData 0 :=
  (ImageRasterizer.foldl_push _ _).2.1

theorem loaded_height :
    (ImageRasterizer.loaded imageData glyphs extraspacing).height = imageData.height :=
  (ImageRasterizer.foldl_push _ _).2.2.1

theorem newImageRasterizer_eq_ok_iff (hformat : imageData.format = .rgba8)
    (hw : 0 < imageData.width) (hh : 0 < imageData.height) {r : ImageRasterizer} :
    newImageRasterizer imageData glyphs extraspacing = .ok r ↔
      (glyphs.length + 1 < 2 ^ 31 ∧
        ∀ x width, Cut imageData glyphs x width → (width : Int) + extraspacing < 2 ^ 31) ∧
      r = ImageRasterizer.loaded imageData glyphs extraspacing := by
  obtain ⟨hok, herror⟩ := @loadLoop_spec _ hformat hh glyphs _ _ (Nat.zero_le _)
    (show (ImageRasterizer.start imageData glyphs extraspacing).spacer = _ from rfl)
  rw [newImageRasterizer, if_neg (not_not.mpr hformat)]
  by_cases hnum : 2 ^ 31 ≤ glyphs.length + 1
  · rw [if_pos hnum]
    constructor
    · intro h
      cases h
    · rintro ⟨⟨hlt, -⟩, -⟩
      omega
  · rw [if_neg hnum, load, readPixel_eq hformat (Nat.mul_pos hw hh)]
    change loadLoop imageData glyphs 0 (.start imageData glyphs extraspacing) = .ok r ↔ _
    by_cases hfits :
        ∀ x width, Cut imageData glyphs x width → (width : Int) + extraspacing < 2 ^ 31
    · rw [hok fun g hmem => hfits g.x g.width (mem_cutGlyphs.mp ⟨g.glyph, hmem⟩)]
      constructor
      · intro h
        exact ⟨⟨by omega, hfits⟩, (Except.ok.inj h).symm⟩
      · rintro ⟨-, rfl⟩
        rfl
    · obtain ⟨x, width, hcut, hlarge⟩ : ∃ x width, Cut imageData glyphs x width ∧
          2 ^ 31 ≤ (width : Int) + extraspacing := by
        push Not at hfits
        exact hfits
      obtain ⟨glyph, hmem⟩ := mem_cutGlyphs.mpr hcut
      rw [herror ⟨_, hmem, hlarge⟩]
      constructor
      · intro h
        cases h
      · rintro ⟨⟨-, hall⟩, -⟩
        exact absurd hall hfits

theorem column_pos {e x : Nat} (h : IsRun (inGlyph imageData) imageData.width x e) :
    0 < x := by
  rcases Nat.eq_zero_or_pos x with rfl | hpos
  · have := h.begins.1
    simp [inGlyph] at this
  · exact hpos

theorem loaded_entry {index : Int} {g : ImageGlyphData}
    (h : (ImageRasterizer.loaded imageData glyphs extraspacing).entry index = some g) :
    g = ⟨0, 0, 0⟩ ∨ Cut imageData glyphs g.x g.width := by
  rw [ImageRasterizer.entry, loaded_imageGlyphs] at h
  split_ifs at h with hindex
  rcases List.mem_cons.mp (List.mem_of_getElem? h) with hnull | hmem
  · exact .inl hnull
  · exact .inr (mem_cutGlyphs.mp ⟨g.glyph, hmem⟩)

theorem loaded_entry_of_cut {x width : Nat} (h : Cut imageData glyphs x width) :
    ∃ index glyph, (ImageRasterizer.loaded imageData glyphs extraspacing).entry index =
      some ⟨x, width, glyph⟩ := by
  obtain ⟨glyph, hmem⟩ := mem_cutGlyphs.mpr h
  obtain ⟨i, hi⟩ := List.mem_iff_getElem?.mp hmem
  have hlt := (List.getElem?_eq_some_iff.mp hi).1
  refine ⟨(i : Int) + 1, glyph, ?_⟩
  rw [ImageRasterizer.entry, loaded_imageGlyphs, List.length_cons, if_pos (by omega)]
  have : ((i : Int) + 1).toNat = i + 1 := by omega
  rw [this, List.getElem?_cons_succ, hi]

/-- The font is cut exactly if the last indices are `int`s. -/
theorem loaded_cutsExactly (hformat : imageData.format = .rgba8) (hh : 0 < imageData.height)
    (hlast : ∀ x width, Cut imageData glyphs x width →
      x + (width - 1) + imageData.width * (imageData.height - 1) < 2 ^ 31) :
    CutsExactly imageData glyphs (.loaded imageData glyphs extraspacing) := by
  have hruns : ∀ i x width glyph,
      (ImageRasterizer.loaded imageData glyphs extraspacing).imageGlyphs[i + 1]? =
        some ⟨x, width, glyph⟩ ↔
      glyphs[i]? = some glyph ∧ IsRun (inGlyph imageData) imageData.width x (x + width) ∧
        runIndex (inGlyph imageData) x = i := by
    intro i x width glyph
    rw [loaded_imageGlyphs, List.getElem?_cons_succ]
    exact cutGlyphs_getElem?
  refine ⟨loaded_spacer, by rw [loaded_imageGlyphs]; rfl, hruns, ?_, ?_⟩
  · intro i j g g' hij hg hg'
    obtain ⟨-, hrun, hindex⟩ := (hruns i g.x g.width g.glyph).mp hg
    obtain ⟨-, hrun', hindex'⟩ := (hruns j g'.x g'.width g'.glyph).mp hg'
    exact hrun.lt_of_index_lt hrun' (by omega)
  · intro now hnow hwidth hheight index
    cases hentry : (ImageRasterizer.loaded imageData glyphs extraspacing).entry index with
    | none =>
      rw [ImageRasterizer.getGlyphDataForIndex]
      simp [hentry, loaded_height, hheight, GlyphMetrics.allocate, Except.bind, bind]
    | some g =>
      rcases loaded_entry hentry with rfl | hcut
      · refine ⟨⟨0, ⟨now.height, 0,
          0 + (ImageRasterizer.loaded imageData glyphs extraspacing).extraSpacing, 0, 0⟩, []⟩,
          ?_, ?_⟩
        · rw [ImageRasterizer.getGlyphDataForIndex]
          simp [hentry, loaded_height, hheight, GlyphMetrics.allocate, Except.bind, bind]
        · refine ⟨rfl, by simp, by simp, ?_⟩
          intro row _ column hcolumn
          exact absurd hcolumn (Nat.not_lt_zero _)
      · have hpos := hcut.1.nonempty
        have hin := hcut.1.inside
        have hfit := hlast g.x g.width hcut
        exact ImageRasterizer.getGlyphDataForIndex_entry (hnow.trans hformat)
          (loaded_height.trans hheight.symm) hentry (column_pos hcut.1) (by omega)
          (by omega) (by omega) (by rw [hwidth, hheight]; exact hfit)

/-- **The font is cut exactly**, from every image of this format and for all glyphs, exactly
if the numbers that are computed are `int`s. -/
theorem newImageRasterizer_cutsExactly_iff (hformat : imageData.format = .rgba8)
    (hw : 0 < imageData.width) (hh : 0 < imageData.height) :
    (∃ r, newImageRasterizer imageData glyphs extraspacing = .ok r ∧
        CutsExactly imageData glyphs r) ↔
      Fits imageData glyphs extraspacing := by
  constructor
  · rintro ⟨r, hr, hexactly⟩
    obtain ⟨⟨hnum, hadvance⟩, rfl⟩ := (newImageRasterizer_eq_ok_iff hformat hw hh).mp hr
    refine ⟨hnum, hadvance, ?_⟩
    intro x width hcut
    obtain ⟨index, glyph, hentry⟩ := @loaded_entry_of_cut _ _ extraspacing _ _ hcut
    have hdata := hexactly.data imageData rfl rfl rfl index
    rw [hentry] at hdata
    obtain ⟨d, hd, -⟩ := hdata
    by_contra hlarge
    have hpos := hcut.1.nonempty
    exact ImageRasterizer.not_getGlyphDataForIndex hformat loaded_height hentry
      (by dsimp only; omega) hh hcut.1.inside (not_lt.mp hlarge) d hd
  · intro hfits
    exact ⟨_, (newImageRasterizer_eq_ok_iff hformat hw hh).mpr ⟨⟨hfits.numglyphs, hfits.advance⟩,
      rfl⟩, loaded_cutsExactly hformat hh hfits.last⟩

end

/-- An image of two columns and `h + 1` rows. At the top left is the spacer, and there only. -/
def twoColumns (h : Nat) : ImageData where
  format := .rgba8
  width := 2
  height := h + 1
  data := [0, 0, 0, 0] ++ List.replicate (8 * h + 4) 1
  size_eq := by
    rw [List.length_append, List.length_replicate]
    simp only [List.length_cons, List.length_nil, Image.UnormFormat.pixelSize]
    ring

theorem twoColumns_run (h : Nat) : IsRun (inGlyph (twoColumns h)) 2 1 2 := by
  have hspacer : color (twoColumns h) 0 = [0, 0, 0, 0] := rfl
  have hright : color (twoColumns h) 1 = [1, 1, 1, 1] := rfl
  refine ⟨by norm_num, le_rfl, ?_, ?_, .inl rfl⟩
  · intro j hj hlt
    have : j = 1 := by omega
    rw [this, inGlyph, hspacer, hright]
    decide
  · right
    simp [inGlyph]

theorem twoColumns_cut (h : Nat) : Cut (twoColumns h) [65] 1 1 := by
  refine ⟨twoColumns_run h, ?_⟩
  have hnone : ¬ Begins (inGlyph (twoColumns h)) 0 := by
    rintro ⟨hfirst, -⟩
    simp [inGlyph] at hfirst
  rw [runIndex, Nat.count_succ, if_neg hnone]
  exact Nat.zero_lt_one

theorem newImageRasterizer_cutsExactly_twoColumns :
    ∃ r, newImageRasterizer (twoColumns 0) [65] 1 = .ok r ∧ CutsExactly (twoColumns 0) [65] r := by
  refine (newImageRasterizer_cutsExactly_iff rfl (by decide) (by decide)).mpr ⟨by decide, ?_, ?_⟩
  · intro x width hcut
    have hin : x + width ≤ 2 := hcut.1.inside
    omega
  · intro x width hcut
    have hin : x + width ≤ 2 := hcut.1.inside
    change x + (width - 1) + 2 * (0 + 1 - 1) < 2 ^ 31
    omega

/-- A glyph of one column and more than 2^30 rows: the font is made, its data is not. -/
theorem not_cutsExactly_tall :
    ∃ r, newImageRasterizer (twoColumns (2 ^ 30)) [65] 0 = .ok r ∧
      ¬ CutsExactly (twoColumns (2 ^ 30)) [65] r := by
  refine ⟨_, (newImageRasterizer_eq_ok_iff rfl (by norm_num [twoColumns])
    (by norm_num [twoColumns])).mpr ⟨⟨by decide, ?_⟩, rfl⟩, ?_⟩
  · intro x width hcut
    have hin : x + width ≤ 2 := hcut.1.inside
    omega
  · intro hexactly
    obtain ⟨index, glyph, hentry⟩ := @loaded_entry_of_cut _ _ 0 _ _ (twoColumns_cut (2 ^ 30))
    have hdata := hexactly.data (twoColumns (2 ^ 30)) rfl rfl rfl index
    rw [hentry] at hdata
    obtain ⟨d, hd, -⟩ := hdata
    exact ImageRasterizer.not_getGlyphDataForIndex rfl loaded_height hentry
      Nat.zero_lt_one (by norm_num [twoColumns]) (by norm_num [twoColumns])
      (by norm_num [twoColumns]) d hd

end Lhatove.Font
