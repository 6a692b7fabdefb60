import Lhatove.Image.PasteClip

/-!
# Slices of an image

`love::image::Image::newCubeFaces` and `newVolumeLayers`: squares of an image, each
pasted into image data of its own.

- Coordinates are `int`. Where one cannot be, in the size of the new image or in
  the offset of a row, the behaviour is undefined.
- Memory is not refused.
-/

namespace Lhatove.Image

open List
open Or (inl inr)

/-- Why a call has no result: an exception, or what the language leaves undefined. -/
inductive SliceFault
  | exception (message : String)
  | undefined
  deriving DecidableEq

namespace ColorImageData

/-- `newImageData`: its bytes are cleared. -/
def blank (format : ColorFormat) (width height : Nat) : ColorImageData where
  format := format
  width := width
  height := height
  data := List.replicate (format.pixelSize * (width * height)) 0
  size_eq := List.length_replicate

/-- The entire memory is copied in one go. -/
def Whole (dst src : ColorImageData) (x y : Span) : Prop :=
  src.format = dst.format ∧ (x.n = dst.width ∧ dst.width = src.width ∧
    y.n = dst.height ∧ dst.height = src.height)

instance (dst src : ColorImageData) (x y : Span) : Decidable (Whole dst src x y) :=
  inferInstanceAs (Decidable (_ ∧ _))

/-- The offsets of rows, in pixels, are `int`. -/
def RowsFit (dst src : ColorImageData) (x y : Span) : Prop :=
  ∀ i < y.n.toNat, x.s + (i + y.s) * src.width < 2 ^ 31 ∧ x.d + (i + y.d) * dst.width < 2 ^ 31

instance (dst src : ColorImageData) (x y : Span) : Decidable (RowsFit dst src x y) :=
  inferInstanceAs (Decidable (∀ i < _, _))

/-- `paste` of an area inside of the source, with offsets that are `int`. -/
def pasteInt (dst src : ColorImageData) (dx dy sx sy sw sh : Int) :
    Except SliceFault ColorImageData :=
  let x : Span := ⟨dx, sx, sw⟩
  let y : Span := ⟨dy, sy, sh⟩
  let nx := x.normalize dst.width src.width
  let ny := y.normalize dst.height src.height
  if x.outside dst.width src.width ∨ y.outside dst.height src.height ∨ Whole dst src nx ny ∨
      nx.n ≤ 0 ∨ RowsFit dst src nx ny then
    match dst.paste src dx dy sx sy sw sh with
    | .ok dst => .ok dst
    | .error (.exception message) => .error (.exception message)
    | .error .outOfBounds => .error .undefined
  else .error .undefined

/-- `newPastedImageData`; `getSize` of the new image multiplies its sides as `int`. -/
def newPastedImageData (src : ColorImageData) (sx sy w h : Nat) :
    Except SliceFault ColorImageData :=
  if 2 ^ 31 ≤ w * h then .error .undefined
  else (blank src.format w h).pasteInt src 0 0 sx sy w h

/-- One after the other, at these positions. -/
def newPastedAll (src : ColorImageData) (w h : Nat) :
    List (Nat × Nat) → Except SliceFault (List ColorImageData)
  | [] => .ok []
  | (sx, sy) :: positions => do
    let image ← newPastedImageData src sx sy w h
    let images ← newPastedAll src w h positions
    .ok (image :: images)

/-- `newCubeFaces`: the faces are +x, -x, +y, -y, +z, -z. -/
def newCubeFaces (src : ColorImageData) : Except SliceFault (List ColorImageData) :=
  let totalW := src.width
  let totalH := src.height
  if totalW % 3 = 0 ∧ totalH % 4 = 0 ∧ totalW / 3 = totalH / 4 then
    let w := totalW / 3
    let h := totalH / 4
    newPastedAll src w h
      [(1 * w, 1 * h), (1 * w, 3 * h), (1 * w, 0 * h), (1 * w, 2 * h), (0 * w, 1 * h),
        (2 * w, 1 * h)]
  else if totalW % 4 = 0 ∧ totalH % 3 = 0 ∧ totalW / 4 = totalH / 3 then
    let w := totalW / 4
    let h := totalH / 3
    newPastedAll src w h
      [(2 * w, 1 * h), (0 * w, 1 * h), (1 * w, 0 * h), (1 * w, 2 * h), (1 * w, 1 * h),
        (3 * w, 1 * h)]
  else if totalH % 6 = 0 ∧ totalW = totalH / 6 then
    let w := totalW
    let h := totalH / 6
    newPastedAll src w h ((List.range 6).map fun i => (0, i * h))
  else if totalW % 6 = 0 ∧ totalW / 6 = totalH then
    let w := totalW / 6
    let h := totalH
    newPastedAll src w h ((List.range 6).map fun i => (i * w, 0))
  else .error (.exception "Unknown cubemap image dimensions!")

/-- `newVolumeLayers`; no number can be divided by zero. -/
def newVolumeLayers (src : ColorImageData) : Except SliceFault (List ColorImageData) :=
  let totalW := src.width
  let totalH := src.height
  if totalH = 0 then .error .undefined
  else if totalW % totalH = 0 then
    newPastedAll src totalH totalH
      ((List.range (totalW / totalH)).map fun i => (i * totalH, 0))
  else if totalH % totalW = 0 then
    newPastedAll src totalW totalW
      ((List.range (totalH / totalW)).map fun i => (0, i * totalW))
  else .error (.exception "Cannot extract volume layers from source ImageData.")

/-! ## What the images are -/

/-- The image has the pixels of the square at a position. -/
structure CopyOf (src : ColorImageData) (n : Nat) (position : Nat × Nat) (img : ColorImageData) :
    Prop where
  format : img.format = src.format
  width : img.width = n
  height : img.height = n
  pixels : ∀ x < n, ∀ y < n, img.pixelAt x y = src.pixelAt (position.1 + x) (position.2 + y)

/-- The square at a position is inside of the image. -/
def SquareInside (src : ColorImageData) (n : Nat) (position : Nat × Nat) : Prop :=
  position.1 + n ≤ src.width ∧ position.2 + n ≤ src.height

/-- A pixel is in the square at a position. -/
def InSquare (n : Nat) (position : Nat × Nat) (x y : Nat) : Prop :=
  (position.1 ≤ x ∧ x < position.1 + n) ∧ position.2 ≤ y ∧ y < position.2 + n

/-- Squares of one size in the image, no two with a pixel in common, and the images of them. -/
structure Squares (src : ColorImageData) (n : Nat) (positions : List (Nat × Nat))
    (images : List ColorImageData) : Prop where
  inside : ∀ position ∈ positions, SquareInside src n position
  apart : positions.Pairwise fun p q => ∀ x y, ¬ (InSquare n p x y ∧ InSquare n q x y)
  copies : List.Forall₂ (CopyOf src n) positions images

/-- The numbers that are computed for a square are `int`. -/
def SquareFits (src : ColorImageData) (n : Nat) (position : Nat × Nat) : Prop :=
  n * n < 2 ^ 31 ∧ (n = 0 ∨ (src.width = n ∧ src.height = n) ∨
    position.1 + (position.2 + (n - 1)) * src.width < 2 ^ 31)

instance (src : ColorImageData) (n : Nat) (position : Nat × Nat) :
    Decidable (SquareFits src n position) := inferInstanceAs (Decidable (_ ∧ _))

/-! ## One image -/

theorem normalize_of_inside {s n total : Nat} (h : s + n ≤ total) :
    (Span.mk 0 s n).normalize n total = ⟨0, s, n⟩ := by
  have hs : ¬ ((s : Int) < 0) := by omega
  have hd : ¬ ((0 : Int) + n > n) := by omega
  have hend : ¬ ((s : Int) + n > total) := by omega
  simp only [Span.normalize, lt_irrefl, if_false, hs, hd, hend]

variable {src : ColorImageData} {n : Nat} {position : Nat × Nat}

theorem rowsFit_iff (hn : 0 < n) (hsize : n * n < 2 ^ 31) :
    RowsFit (blank src.format n n) src ⟨0, position.1, n⟩ ⟨0, position.2, n⟩ ↔
      position.1 + (position.2 + (n - 1)) * src.width < 2 ^ 31 := by
  obtain ⟨sx, sy⟩ := position
  constructor
  · intro h
    have hlast := (h (n - 1) (by simpa using hn)).1
    have hcast : ((sx + (sy + (n - 1)) * src.width : Nat) : Int) < 2 ^ 31 := by
      push_cast [Nat.cast_sub hn] at hlast ⊢
      linarith
    exact_mod_cast hcast
  · intro h i hi
    have hi : i < n := by simpa using hi
    constructor
    · have hle : sx + (sy + i) * src.width ≤ sx + (sy + (n - 1)) * src.width :=
        Nat.add_le_add_left (Nat.mul_le_mul_right _ (by omega)) _
      have hcast : ((sx + (sy + i) * src.width : Nat) : Int) < 2 ^ 31 := by
        exact_mod_cast hle.trans_lt h
      push_cast at hcast
      linarith
    · have hle : i * n ≤ n * n := Nat.mul_le_mul_right _ (by omega)
      have hcast : ((i * n : Nat) : Int) < 2 ^ 31 := by exact_mod_cast hle.trans_lt hsize
      push_cast at hcast
      change (0 : Int) + (i + 0) * (n : Int) < 2 ^ 31
      linarith

theorem paste_copyOf (hinside : SquareInside src n position) :
    ∃ img, (blank src.format n n).paste src 0 0 position.1 position.2 n n = .ok img ∧
      CopyOf src n position img := by
  obtain ⟨hx, hy⟩ := hinside
  obtain ⟨img, himg, hpasted⟩ :=
    paste_pasted (blank src.format n n) src rfl 0 0 position.1 position.2 n n
  refine ⟨img, himg, hpasted.format, hpasted.width, hpasted.height, ?_⟩
  intro x hxn y hyn
  have hpixel := hpasted.inside x y hxn hyn (by
    unfold Span.Covers
    dsimp only
    omega)
  have hxeq : ((x : Int) + (position.1 - 0)).toNat = position.1 + x := by omega
  have hyeq : ((y : Int) + (position.2 - 0)).toNat = position.2 + y := by omega
  rw [hpixel, hxeq, hyeq]

/-- `paste` has its result exactly if all of its offsets are `int`. -/
theorem newPastedImageData_spec (hinside : SquareInside src n position) :
    (SquareFits src n position → ∃ img, newPastedImageData src position.1 position.2 n n = .ok img ∧
      CopyOf src n position img) ∧
    (¬ SquareFits src n position →
      newPastedImageData src position.1 position.2 n n = .error .undefined) := by
  obtain ⟨img, himg, hcopy⟩ := paste_copyOf hinside
  by_cases hsize : 2 ^ 31 ≤ n * n
  · refine ⟨fun h => absurd h.1 (not_lt.mpr hsize), fun _ => ?_⟩
    rw [newPastedImageData, if_pos hsize]
  have hsize' : n * n < 2 ^ 31 := not_le.mp hsize
  -- the condition of `pasteInt` is the rest of `SquareFits`
  have hcondition : ((Span.mk 0 position.1 n).outside n src.width ∨
      (Span.mk 0 position.2 n).outside n src.height ∨
      Whole (blank src.format n n) src ⟨0, position.1, n⟩ ⟨0, position.2, n⟩ ∨ (n : Int) ≤ 0 ∨
      RowsFit (blank src.format n n) src ⟨0, position.1, n⟩ ⟨0, position.2, n⟩) ↔
      SquareFits src n position := by
    obtain ⟨hx, hy⟩ := hinside
    rw [SquareFits, Span.outside, Span.outside, Whole]
    rcases Nat.eq_zero_or_pos n with hn | hn
    · subst hn
      simp
    · rw [rowsFit_iff hn hsize']
      change _ ∨ _ ∨ (_ ∧ (n : Int) = (n : Nat) ∧ n = src.width ∧ (n : Int) = (n : Nat) ∧
        n = src.height) ∨ _ ∨ _ ↔ _
      constructor
      · rintro (h | h | ⟨-, -, hw, -, hh⟩ | h | h)
        · dsimp only at h
          omega
        · dsimp only at h
          omega
        · exact ⟨hsize', inr (inl ⟨hw.symm, hh.symm⟩)⟩
        · omega
        · exact ⟨hsize', inr (inr h)⟩
      · rintro ⟨-, h | ⟨hw, hh⟩ | h⟩
        · omega
        · exact inr (inr (inl ⟨rfl, rfl, hw.symm, rfl, hh.symm⟩))
        · exact inr (inr (inr (inr h)))
  have hpaste : newPastedImageData src position.1 position.2 n n =
      if SquareFits src n position then .ok img else .error .undefined := by
    rw [newPastedImageData, if_neg hsize]
    unfold pasteInt
    change (if (Span.mk 0 position.1 n).outside n src.width ∨
      (Span.mk 0 position.2 n).outside n src.height ∨
      Whole (blank src.format n n) src ((Span.mk 0 position.1 n).normalize n src.width)
        ((Span.mk 0 position.2 n).normalize n src.height) ∨
      ((Span.mk 0 position.1 n).normalize n src.width).n ≤ 0 ∨
      RowsFit (blank src.format n n) src ((Span.mk 0 position.1 n).normalize n src.width)
        ((Span.mk 0 position.2 n).normalize n src.height) then _ else _) = _
    rw [normalize_of_inside hinside.1, normalize_of_inside hinside.2, himg]
    exact if_congr hcondition rfl rfl
  constructor
  · intro h
    exact ⟨img, by rw [hpaste, if_pos h], hcopy⟩
  · intro h
    rw [hpaste, if_neg h]

/-! ## All images -/

/-- All squares of a list: they have images exactly if all of the numbers are `int`. -/
theorem newPastedAll_spec {positions : List (Nat × Nat)}
    (hinside : ∀ position ∈ positions, SquareInside src n position) :
    ((∀ position ∈ positions, SquareFits src n position) →
      ∃ images, newPastedAll src n n positions = .ok images ∧
        List.Forall₂ (CopyOf src n) positions images) ∧
    ((¬ ∀ position ∈ positions, SquareFits src n position) →
      newPastedAll src n n positions = .error .undefined) := by
  induction positions with
  | nil =>
    refine ⟨fun _ => ⟨[], rfl, .nil⟩, fun h => absurd ?_ h⟩
    simp
  | cons position positions ih =>
    obtain ⟨hfirst, hrest⟩ := forall_mem_cons.mp hinside
    obtain ⟨hok, hundefined⟩ := newPastedImageData_spec hfirst
    obtain ⟨ihok, ihundefined⟩ := ih hrest
    constructor
    · intro hfits
      obtain ⟨hfit, hfits⟩ := forall_mem_cons.mp hfits
      obtain ⟨img, himg, hcopy⟩ := hok hfit
      obtain ⟨images, himages, hcopies⟩ := ihok hfits
      refine ⟨img :: images, ?_, .cons hcopy hcopies⟩
      rw [newPastedAll, himg, himages]
      rfl
    · intro hnot
      rw [forall_mem_cons, not_and] at hnot
      by_cases hfit : SquareFits src n position
      · obtain ⟨img, himg, -⟩ := hok hfit
        rw [newPastedAll, himg, ihundefined (hnot hfit)]
        rfl
      · rw [newPastedAll, hundefined hfit]
        rfl

/-- A result is sound: it is an exception, or images of squares for which more is true. Where the
behaviour is undefined it is not. -/
def Sound (src : ColorImageData) (more : Nat → List (Nat × Nat) → Prop) :
    Except SliceFault (List ColorImageData) → Prop
  | .ok images => ∃ n positions, Squares src n positions images ∧ more n positions
  | .error (.exception _) => True
  | .error .undefined => False

theorem sound_newPastedAll_iff {positions : List (Nat × Nat)}
    {more : Nat → List (Nat × Nat) → Prop}
    (hinside : ∀ position ∈ positions, SquareInside src n position)
    (hapart : positions.Pairwise fun p q => ∀ x y, ¬ (InSquare n p x y ∧ InSquare n q x y))
    (hmore : more n positions) :
    Sound src more (newPastedAll src n n positions) ↔
      ∀ position ∈ positions, SquareFits src n position := by
  obtain ⟨hok, hundefined⟩ := newPastedAll_spec hinside
  constructor
  · intro hsound
    by_contra hnot
    rw [hundefined hnot] at hsound
    exact hsound
  · intro hfits
    obtain ⟨images, himages, hcopies⟩ := hok hfits
    rw [himages]
    exact ⟨n, positions, ⟨hinside, hapart, hcopies⟩, hmore⟩

/-! ## Squares of a grid -/

/-- The position of a square, by its column and its row. -/
def cell (n : Nat) (c : Nat × Nat) : Nat × Nat := (c.1 * n, c.2 * n)

theorem eq_of_inSquare {c c' : Nat × Nat} {x y : Nat} (h : InSquare n (cell n c) x y)
    (h' : InSquare n (cell n c') x y) : c = c' := by
  have hdiv : ∀ {a z : Nat}, a * n ≤ z → z < a * n + n → z / n = a := by
    intro a z hle hlt
    rw [Nat.div_eq_iff (by omega)]
    constructor <;> omega
  obtain ⟨⟨hx, hx'⟩, hy, hy'⟩ := h
  obtain ⟨⟨kx, kx'⟩, ky, ky'⟩ := h'
  exact Prod.ext ((hdiv hx hx').symm.trans (hdiv kx kx')) ((hdiv hy hy').symm.trans (hdiv ky ky'))

theorem cells_apart {cells : List (Nat × Nat)} (h : cells.Nodup) :
    (cells.map (cell n)).Pairwise fun p q => ∀ x y, ¬ (InSquare n p x y ∧ InSquare n q x y) := by
  rw [pairwise_map]
  refine .imp ?_ h
  intro c c' hne x y hboth
  exact hne (eq_of_inSquare hboth.1 hboth.2)

theorem cells_inside {cells : List (Nat × Nat)} (columns rows : Nat)
    (hcells : ∀ c ∈ cells, c.1 < columns ∧ c.2 < rows) (hwidth : columns * n ≤ src.width)
    (hheight : rows * n ≤ src.height) :
    ∀ position ∈ cells.map (cell n), SquareInside src n position := by
  intro position hmem
  obtain ⟨c, hc, rfl⟩ := mem_map.mp hmem
  obtain ⟨hcolumn, hrow⟩ := hcells c hc
  have hx : (c.1 + 1) * n ≤ columns * n := Nat.mul_le_mul_right n hcolumn
  have hy : (c.2 + 1) * n ≤ rows * n := Nat.mul_le_mul_right n hrow
  rw [Nat.succ_mul] at hx hy
  exact ⟨hx.trans hwidth, hy.trans hheight⟩

theorem cell_fits_iff {columns : Nat} (hn : 0 < n) (hwidth : src.width = columns * n)
    (c : Nat × Nat) :
    SquareFits src n (cell n c) ↔ n * n < 2 ^ 31 ∧ ((src.width = n ∧ src.height = n) ∨
      columns * (c.2 + 1) * (n * n) + c.1 * n < 2 ^ 31 + columns * n) := by
  have hlast : c.1 * n + (c.2 * n + (n - 1)) * src.width + columns * n =
      columns * (c.2 + 1) * (n * n) + c.1 * n := by
    obtain ⟨m, rfl⟩ := Nat.exists_eq_succ_of_ne_zero hn.ne'
    rw [hwidth, Nat.succ_sub_one, Nat.succ_eq_add_one]
    ring
  unfold SquareFits cell
  dsimp only
  have hn0 : ¬ n = 0 := hn.ne'
  constructor
  · rintro ⟨hsize, h | h | h⟩
    · exact absurd h hn0
    · exact ⟨hsize, inl h⟩
    · exact ⟨hsize, inr (by omega)⟩
  · rintro ⟨hsize, h | h⟩
    · exact ⟨hsize, inr (inl h)⟩
    · exact ⟨hsize, inr (inr (by omega))⟩

/-! ## Strips -/

/-- A row and a column of squares. -/
def rowCells (count : Nat) : List (Nat × Nat) := (List.range count).map fun i => (i, 0)

def columnCells (count : Nat) : List (Nat × Nat) := (List.range count).map fun i => (0, i)

theorem rowCells_nodup (count : Nat) : (rowCells count).Nodup :=
  List.Nodup.map (fun _ _ h => (Prod.mk.inj h).1) nodup_range

theorem columnCells_nodup (count : Nat) : (columnCells count).Nodup :=
  List.Nodup.map (fun _ _ h => (Prod.mk.inj h).2) nodup_range

variable {count : Nat} {p : Nat × Nat → Prop}

theorem forall_rowCells : (∀ c ∈ rowCells count, p c) ↔ ∀ i < count, p (i, 0) := by
  simp [rowCells]

theorem forall_columnCells : (∀ c ∈ columnCells count, p c) ↔ ∀ i < count, p (0, i) := by
  simp [columnCells]

theorem map_rowCells (n count : Nat) :
    (rowCells count).map (cell n) = (List.range count).map fun i => (i * n, 0) := by
  simp [rowCells, cell, Function.comp_def]

theorem map_columnCells (n count : Nat) :
    (columnCells count).map (cell n) = (List.range count).map fun i => (0, i * n) := by
  simp [columnCells, cell, Function.comp_def]

/-- The pixels of a strip of squares, as far as the last row of the last square. -/
def StripFits (n count : Nat) : Prop :=
  count * (n * n) < 2 ^ 31 + if count = 1 then 0 else n

theorem rowCells_fit_iff (hn : 0 < n) (hwidth : src.width = count * n) (hheight : src.height = n) :
    (∀ position ∈ (rowCells count).map (cell n), SquareFits src n position) ↔
      StripFits n count := by
  have hle : n ≤ n * n := Nat.le_mul_of_pos_left n hn
  rw [forall_mem_map, forall_rowCells, StripFits]
  simp only [cell_fits_iff hn hwidth]
  rcases Nat.lt_or_ge 1 count with hcount | hcount
  · have hne : ¬ src.width = n := by
      rw [hwidth]
      intro h
      have : 2 * n ≤ count * n := Nat.mul_le_mul_right n hcount
      omega
    have hlast : (count - 1) * n + n = count * n := by
      rw [← Nat.succ_mul, Nat.succ_eq_add_one, Nat.sub_add_cancel hcount.le]
    rw [if_neg hcount.ne']
    constructor
    · intro h
      obtain ⟨-, h | h⟩ := h (count - 1) (by omega)
      · exact absurd h.1 hne
      · rw [Nat.mul_one] at h
        omega
    · intro h i hi
      have htwo : 2 * (n * n) ≤ count * (n * n) := Nat.mul_le_mul_right _ hcount
      have hi' : i * n ≤ (count - 1) * n := Nat.mul_le_mul_right n (by omega)
      refine ⟨by omega, inr ?_⟩
      rw [Nat.mul_one]
      omega
  · interval_cases count
    · simp
    · simp [hwidth, hheight]

theorem columnCells_fit_iff (hn : 0 < n) (hwidth : src.width = n) (hcount : 1 < count)
    (hheight : src.height = count * n) :
    (∀ position ∈ (columnCells count).map (cell n), SquareFits src n position) ↔
      StripFits n count := by
  have hle : n ≤ n * n := Nat.le_mul_of_pos_left n hn
  have hne : ¬ src.height = n := by
    rw [hheight]
    intro h
    have : 2 * n ≤ count * n := Nat.mul_le_mul_right n hcount
    omega
  rw [forall_mem_map, forall_columnCells, StripFits, if_neg hcount.ne']
  simp only [cell_fits_iff hn (by rw [hwidth, Nat.one_mul] : src.width = 1 * n), Nat.one_mul]
  constructor
  · intro h
    obtain ⟨-, h | h⟩ := h (count - 1) (by omega)
    · exact absurd h.2 hne
    · rw [Nat.sub_add_cancel hcount.le] at h
      omega
  · intro h i hi
    have htwo : 2 * (n * n) ≤ count * (n * n) := Nat.mul_le_mul_right _ hcount
    have hi' : (i + 1) * (n * n) ≤ count * (n * n) := Nat.mul_le_mul_right _ hi
    refine ⟨by omega, inr ?_⟩
    omega

/-! ## Volumes -/

/-- Every pixel of the image is in one of the squares. -/
def Covers (src : ColorImageData) (n : Nat) (positions : List (Nat × Nat)) : Prop :=
  ∀ x < src.width, ∀ y < src.height, ∃ position ∈ positions, InSquare n position x y

/-- The image has rows, and where it is a strip of squares its pixels can be counted, as far as
the last row of the last square. -/
def VolumeFits (W H : Nat) : Prop :=
  H ≠ 0 ∧ (W % H = 0 → StripFits H (W / H)) ∧ (W % H ≠ 0 → H % W = 0 → StripFits W (H / W))

theorem rowCells_cover (hn : 0 < n) (hwidth : src.width = count * n)
    (hheight : src.height = n) : Covers src n ((rowCells count).map (cell n)) := by
  intro x hx y hy
  refine ⟨cell n (x / n, 0), mem_map_of_mem ?_, ?_⟩
  · rw [hwidth] at hx
    exact mem_map.mpr ⟨x / n, mem_range.mpr (Nat.div_lt_of_lt_mul (by linarith)), rfl⟩
  · have hdiv := Nat.div_add_mod x n
    have hmod := Nat.mod_lt x hn
    unfold InSquare cell
    dsimp only
    rw [Nat.mul_comm n] at hdiv
    omega

theorem columnCells_cover (hn : 0 < n) (hwidth : src.width = n)
    (hheight : src.height = count * n) : Covers src n ((columnCells count).map (cell n)) := by
  intro x hx y hy
  refine ⟨cell n (0, y / n), mem_map_of_mem ?_, ?_⟩
  · rw [hheight] at hy
    exact mem_map.mpr ⟨y / n, mem_range.mpr (Nat.div_lt_of_lt_mul (by linarith)), rfl⟩
  · have hdiv := Nat.div_add_mod y n
    have hmod := Nat.mod_lt y hn
    unfold InSquare cell
    dsimp only
    rw [Nat.mul_comm n] at hdiv
    omega

theorem volume_sound_iff (src : ColorImageData) :
    Sound src (Covers src) (newVolumeLayers src) ↔ VolumeFits src.width src.height := by
  rw [newVolumeLayers, VolumeFits]
  split_ifs with hzero hrow hcolumn
  · simp [Sound, hzero]
  · have hn : 0 < src.height := Nat.pos_of_ne_zero hzero
    have hwidth : src.width = src.width / src.height * src.height :=
      (Nat.div_mul_cancel (Nat.dvd_of_mod_eq_zero hrow)).symm
    rw [← map_rowCells, sound_newPastedAll_iff
      (cells_inside (src.width / src.height) 1 (by simp [rowCells])
        hwidth.symm.le (by simp))
      (cells_apart (rowCells_nodup _)) (rowCells_cover hn hwidth rfl),
      rowCells_fit_iff hn hwidth rfl]
    simp [hzero, hrow]
  · have hn : 0 < src.width := by
      refine Nat.pos_of_ne_zero fun h => hrow ?_
      rw [h, Nat.zero_mod]
    have hheight : src.height = src.height / src.width * src.width :=
      (Nat.div_mul_cancel (Nat.dvd_of_mod_eq_zero hcolumn)).symm
    have hcount : 1 < src.height / src.width := by
      by_contra hle
      rcases Nat.le_one_iff_eq_zero_or_eq_one.mp (not_lt.mp hle) with h | h
      · rw [h, Nat.zero_mul] at hheight
        exact hzero hheight
      · rw [h, Nat.one_mul] at hheight
        exact hrow (by rw [hheight, Nat.mod_self])
    rw [← map_columnCells, sound_newPastedAll_iff
      (cells_inside 1 (src.height / src.width) (by simp [columnCells])
        (by simp) hheight.symm.le)
      (cells_apart (columnCells_nodup _)) (columnCells_cover hn rfl hheight),
      columnCells_fit_iff hn rfl hcount hheight]
    simp [hzero, hrow, hcolumn]
  · simp [Sound, hzero, hrow, hcolumn]

/-! ## Cubes -/

/-- The squares of the cross that stands, and of the one that lies. -/
def standingCells : List (Nat × Nat) := [(1, 1), (1, 3), (1, 0), (1, 2), (0, 1), (2, 1)]

def lyingCells : List (Nat × Nat) := [(2, 1), (0, 1), (1, 0), (1, 2), (1, 1), (3, 1)]

/-- Where the image is one of the four layouts its pixels can be counted, as far as the last row
of the last face. -/
def CubeFits (W H : Nat) : Prop :=
  if W % 3 = 0 ∧ H % 4 = 0 ∧ W / 3 = H / 4 then W * H < 2 ^ 31 + 2 * (W / 3)
  else if W % 4 = 0 ∧ H % 3 = 0 ∧ W / 4 = H / 3 then W * H < 2 ^ 31 + 3 * (W / 4)
  else if H % 6 = 0 ∧ W = H / 6 then W * H < 2 ^ 31 + W
  else if W % 6 = 0 ∧ W / 6 = H then W * H < 2 ^ 31 + H
  else True

theorem standing_fit_iff (hwidth : src.width = 3 * n) (hheight : src.height = 4 * n) :
    (∀ position ∈ standingCells.map (cell n), SquareFits src n position) ↔
      src.width * src.height < 2 ^ 31 + 2 * n := by
  rw [forall_mem_map]
  rcases Nat.eq_zero_or_pos n with rfl | hn
  · simp [SquareFits, hwidth]
  have hle : n ≤ n * n := Nat.le_mul_of_pos_left n hn
  have hsize : src.width * src.height = 12 * (n * n) := by
    rw [hwidth, hheight]
    ring
  have hne : ¬ src.width = n := by omega
  simp only [cell_fits_iff hn hwidth, hne, false_and, false_or, standingCells,
    forall_mem_cons, not_mem_nil, IsEmpty.forall_iff, implies_true, and_true]
  omega

theorem lying_fit_iff (hwidth : src.width = 4 * n) (hheight : src.height = 3 * n) :
    (∀ position ∈ lyingCells.map (cell n), SquareFits src n position) ↔
      src.width * src.height < 2 ^ 31 + 3 * n := by
  rw [forall_mem_map]
  rcases Nat.eq_zero_or_pos n with rfl | hn
  · simp [SquareFits, hwidth]
  have hle : n ≤ n * n := Nat.le_mul_of_pos_left n hn
  have hsize : src.width * src.height = 12 * (n * n) := by
    rw [hwidth, hheight]
    ring
  have hne : ¬ src.width = n := by omega
  simp only [cell_fits_iff hn hwidth, hne, false_and, false_or, lyingCells,
    forall_mem_cons, not_mem_nil, IsEmpty.forall_iff, implies_true, and_true]
  omega

theorem stripFits_six (n : Nat) : StripFits n 6 ↔ n * (6 * n) < 2 ^ 31 + n := by
  have hsize : n * (6 * n) = 6 * (n * n) := by ring
  rw [StripFits, if_neg (by decide), hsize]

theorem cube_sound_iff (src : ColorImageData) :
    Sound src (fun _ positions => positions.length = 6) (newCubeFaces src) ↔
      CubeFits src.width src.height := by
  rw [newCubeFaces, CubeFits]
  split_ifs with hstanding hlying hcolumn hrow
  · obtain ⟨hw, hh, heq⟩ := hstanding
    have hwidth : src.width = 3 * (src.width / 3) := by omega
    have hheight : src.height = 4 * (src.width / 3) := by omega
    rw [← heq]
    change Sound src _ (newPastedAll src _ _ (standingCells.map (cell (src.width / 3)))) ↔ _
    rw [sound_newPastedAll_iff
      (cells_inside 3 4 (by decide) hwidth.symm.le hheight.symm.le)
      (cells_apart (by decide)) rfl, standing_fit_iff hwidth hheight]
  · obtain ⟨hw, hh, heq⟩ := hlying
    have hwidth : src.width = 4 * (src.width / 4) := by omega
    have hheight : src.height = 3 * (src.width / 4) := by omega
    rw [← heq]
    change Sound src _ (newPastedAll src _ _ (lyingCells.map (cell (src.width / 4)))) ↔ _
    rw [sound_newPastedAll_iff
      (cells_inside 4 3 (by decide) hwidth.symm.le hheight.symm.le)
      (cells_apart (by decide)) rfl, lying_fit_iff hwidth hheight]
  · obtain ⟨hh, heq⟩ := hcolumn
    have hheight : src.height = 6 * src.width := by omega
    have hn : 0 < src.width := by
      refine Nat.pos_of_ne_zero fun h => hstanding ?_
      omega
    rw [← heq]
    dsimp only
    rw [← map_columnCells, sound_newPastedAll_iff
      (cells_inside 1 6 (by decide) (by simp) hheight.symm.le)
      (cells_apart (columnCells_nodup 6)) rfl,
      columnCells_fit_iff hn rfl (by decide) hheight, stripFits_six, hheight]
  · obtain ⟨hw, heq⟩ := hrow
    have hwidth : src.width = 6 * src.height := by omega
    have hn : 0 < src.height := by
      refine Nat.pos_of_ne_zero fun h => hstanding ?_
      omega
    rw [heq]
    dsimp only
    rw [← map_rowCells, sound_newPastedAll_iff
      (cells_inside 6 1 (by decide) hwidth.symm.le (by simp))
      (cells_apart (rowCells_nodup 6)) rfl, rowCells_fit_iff hn hwidth rfl, stripFits_six,
      hwidth, Nat.mul_comm src.height]
  · simp [Sound]

/-- Both functions give squares that are inside of the image, apart and copied pixel by pixel (and
those of a volume cover it, and there are six of a cube), exactly if the pixels can be counted. -/
theorem slices_sound_iff (src : ColorImageData) :
    (Sound src (Covers src) (newVolumeLayers src) ↔ VolumeFits src.width src.height) ∧
    (Sound src (fun _ positions => positions.length = 6) (newCubeFaces src) ↔
      CubeFits src.width src.height) :=
  ⟨volume_sound_iff src, cube_sound_iff src⟩

/-- Four layers of 32768 by 32768 pixels, side by side: the offset of row 16384 is no `int`. -/
theorem large_volume_not_sound :
    ¬ Sound (blank (.unorm .r8) 131072 32768) (Covers (blank (.unorm .r8) 131072 32768))
      (newVolumeLayers (blank (.unorm .r8) 131072 32768)) := by
  rw [volume_sound_iff]
  rintro ⟨-, hrow, -⟩
  have hstrip : StripFits 32768 4 := hrow rfl
  unfold StripFits at hstrip
  norm_num at hstrip

end ColorImageData

end Lhatove.Image
