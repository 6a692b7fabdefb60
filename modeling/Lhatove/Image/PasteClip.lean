import Lhatove.Image.Paste

/-!
# What a paste changes

- `Span.normalize_covers`: clipping leaves what is in both images, on each axis;
- `pasteRowAt_pasted`, `pasteRows_pasted`: what one row changes, and what all rows change;
- `paste_pasted`: a paste between images of one format.
-/

namespace Lhatove.Image

/-! ## One axis -/

/-- The source of a coordinate is in the source's span, and in the source image. -/
def Span.Covers (a : Span) (src : Int) (x : Int) : Prop :=
  (a.s ≤ x - a.d + a.s ∧ x - a.d + a.s < a.s + a.n) ∧ 0 ≤ x - a.d + a.s ∧ x - a.d + a.s < src

instance (a : Span) (src x : Int) : Decidable (a.Covers src x) :=
  inferInstanceAs (Decidable (_ ∧ _))

/-- The span is inside of both images. -/
structure Span.Inside (a : Span) (dst src : Int) : Prop where
  d_nonneg : 0 ≤ a.d
  s_nonneg : 0 ≤ a.s
  d_end : a.d + a.n ≤ dst
  s_end : a.s + a.n ≤ src

theorem Span.normalize_inside (a : Span) (dst src : Int) : (a.normalize dst src).Inside dst src := by
  rw [normalize]
  split_ifs <;> constructor <;> (try dsimp only at *) <;> omega

theorem Span.normalize_shift (a : Span) (dst src : Int) :
    (a.normalize dst src).s - (a.normalize dst src).d = a.s - a.d := by
  rw [normalize]
  split_ifs <;> (try dsimp only) <;> omega

variable {dst src x : Int}

/-- **Clipping** leaves the coordinates whose source is in the span and in the source. -/
theorem Span.normalize_covers (a : Span) (hx : 0 ≤ x ∧ x < dst) :
    ((a.normalize dst src).d ≤ x ∧ x < (a.normalize dst src).d + (a.normalize dst src).n) ↔
      a.Covers src x := by
  rw [normalize, Covers]
  split_ifs <;> (try dsimp only at *) <;> omega

theorem Span.not_covers_of_outside {a : Span} (h : a.outside dst src)
    (hx : 0 ≤ x ∧ x < dst) : ¬ a.Covers src x := by
  rw [outside] at h
  rw [Covers]
  omega

namespace ColorImageData

/-! ## Pixels -/

/-- The bytes of a pixel. -/
def pixelAt (img : ColorImageData) (x y : Nat) : List Byte :=
  (img.data.drop ((y * img.width + x) * img.format.pixelSize)).take img.format.pixelSize

/-- `dst'` is `dst`, but for the pixels of an area, which are those of `src` that are
`kx` and `ky` further. -/
structure Pasted (src dst dst' : ColorImageData) (kx ky : Int) (area : Nat → Nat → Prop) :
    Prop where
  format : dst'.format = dst.format
  width : dst'.width = dst.width
  height : dst'.height = dst.height
  inside : ∀ x y, x < dst.width → y < dst.height → area x y →
    dst'.pixelAt x y = src.pixelAt (x + kx).toNat (y + ky).toNat
  outside : ∀ x y, x < dst.width → y < dst.height → ¬ area x y →
    dst'.pixelAt x y = dst.pixelAt x y

variable {kx ky : Int} {area : Nat → Nat → Prop}

theorem Pasted.none (src dst : ColorImageData)
    (h : ∀ x y, x < dst.width → y < dst.height → ¬ area x y) :
    Pasted src dst dst kx ky area where
  format := rfl
  width := rfl
  height := rfl
  inside x y hx hy harea := absurd harea (h x y hx hy)
  outside _ _ _ _ _ := rfl

variable {src dst dst' : ColorImageData} {area' : Nat → Nat → Prop}

theorem Pasted.congr (h : Pasted src dst dst' kx ky area)
    (harea : ∀ x y, x < dst.width → y < dst.height → (area x y ↔ area' x y)) :
    Pasted src dst dst' kx ky area' where
  format := h.format
  width := h.width
  height := h.height
  inside x y hx hy hin := h.inside x y hx hy ((harea x y hx hy).mpr hin)
  outside x y hx hy hout := h.outside x y hx hy fun hin => hout ((harea x y hx hy).mp hin)

theorem Pasted.trans {dst'' : ColorImageData} (h : Pasted src dst dst' kx ky area)
    (h' : Pasted src dst' dst'' kx ky area') :
    Pasted src dst dst'' kx ky fun x y => area x y ∨ area' x y where
  format := h'.format.trans h.format
  width := h'.width.trans h.width
  height := h'.height.trans h.height
  inside x y hx hy hin := by
    have hx' : x < dst'.width := h.width ▸ hx
    have hy' : y < dst'.height := h.height ▸ hy
    by_cases harea : area' x y
    · exact h'.inside x y hx' hy' harea
    · exact (h'.outside x y hx' hy' harea).trans
        (h.inside x y hx hy (hin.resolve_right harea))
  outside x y hx hy hout := by
    have hx' : x < dst'.width := h.width ▸ hx
    have hy' : y < dst'.height := h.height ▸ hy
    exact (h'.outside x y hx' hy' fun hin => hout (.inr hin)).trans
      (h.outside x y hx hy fun hin => hout (.inl hin))

/-! ## Copies of pixels that follow each other -/

variable {img : ColorImageData} {index count : Nat}

theorem read_eq (h : index + count ≤ img.width * img.height) :
    img.read ((index : Int) * img.format.pixelSize) (img.format.pixelSize * count) =
      .ok ((img.data.drop (index * img.format.pixelSize)).take (img.format.pixelSize * count)) := by
  have hend := Nat.mul_le_mul_left img.format.pixelSize h
  rw [Nat.mul_add, Nat.mul_comm _ index] at hend
  rw [read, ← Nat.cast_mul, Int.toNat_natCast, if_pos ⟨Int.natCast_nonneg _, by rw [img.size_eq]; omega⟩]

theorem write_eq {bytes : List Byte} (h : index + count ≤ img.width * img.height)
    (hbytes : bytes.length = img.format.pixelSize * count) :
    ∃ img', img.write ((index : Int) * img.format.pixelSize) bytes = .ok img' ∧
      img'.format = img.format ∧ img'.width = img.width ∧ img'.height = img.height ∧
      img'.data = overwrite img.data (index * img.format.pixelSize) bytes := by
  have hend := Nat.mul_le_mul_left img.format.pixelSize h
  rw [Nat.mul_add, Nat.mul_comm _ index] at hend
  rw [write, dif_pos ⟨by positivity, by
    rw [← Nat.cast_mul, Int.toNat_natCast, img.size_eq, hbytes]; omega⟩]
  refine ⟨_, rfl, rfl, rfl, rfl, ?_⟩
  dsimp only
  rw [← Nat.cast_mul, Int.toNat_natCast]

theorem copied_pixel {buffer bytes : List Byte} {p s d : Nat} (hs : (s + count) * p ≤ bytes.length)
    (hd : (d + count) * p ≤ buffer.length) (k : Nat) :
    ((overwrite buffer (d * p) ((bytes.drop (s * p)).take (p * count))).drop (k * p)).take p =
      if d ≤ k ∧ k < d + count then (bytes.drop ((s + (k - d)) * p)).take p
      else (buffer.drop (k * p)).take p := by
  have hlength : ((bytes.drop (s * p)).take (p * count)).length = p * count := by
    rw [List.length_take, List.length_drop, Nat.mul_comm p]
    rw [Nat.add_mul] at hs
    omega
  have hstart : d * p ≤ buffer.length := le_trans (Nat.mul_le_mul_right p (by omega)) hd
  have hnext : k * p + p = (k + 1) * p := (Nat.succ_mul k p).symm
  split_ifs with hk
  · obtain ⟨i, rfl⟩ := Nat.exists_eq_add_of_le hk.1
    have hi : (i + 1) * p ≤ count * p := Nat.mul_le_mul_right p (by omega)
    rw [Nat.succ_mul] at hi
    rw [overwrite_piece_inside hstart (Nat.mul_le_mul_right p hk.1)
      (by rw [hlength, Nat.add_mul, Nat.mul_comm p count]; omega),
      Nat.add_mul, Nat.add_sub_cancel_left, Nat.add_sub_cancel_left, List.drop_take, List.take_take,
      List.drop_drop, Nat.add_mul, Nat.min_eq_left (by rw [Nat.mul_comm p count]; omega)]
  · rcases Nat.lt_or_ge k d with hbefore | hbehind
    · refine overwrite_piece_before hstart ?_
      rw [hnext]
      exact Nat.mul_le_mul_right p hbefore
    · rw [overwrite_piece_behind hstart]
      rw [hlength, Nat.mul_comm p, ← Nat.add_mul]
      exact Nat.mul_le_mul_right p (by omega)

variable {w row n : Nat}

theorem mem_row_iff {x y d : Nat} (hx : x < w) (hd : d + n ≤ w) :
    (row * w + d ≤ y * w + x ∧ y * w + x < row * w + d + n) ↔ y = row ∧ d ≤ x ∧ x < d + n := by
  rcases Nat.lt_trichotomy y row with hlt | rfl | hlt
  · have hrow : (y + 1) * w ≤ row * w := Nat.mul_le_mul_right w hlt
    rw [Nat.succ_mul] at hrow
    omega
  · omega
  · have hrow : (row + 1) * w ≤ y * w := Nat.mul_le_mul_right w hlt
    rw [Nat.succ_mul] at hrow
    omega

theorem row_end_le {h d : Nat} (hrow : row < h) (hd : d + n ≤ w) : row * w + d + n ≤ w * h := by
  have hle : (row + 1) * w ≤ h * w := Nat.mul_le_mul_right w hrow
  rw [Nat.succ_mul, Nat.mul_comm h] at hle
  omega

/-! ## Rows -/

variable {x y : Span} {i : Nat}

/-- **One row** of an area that is inside of both images. -/
theorem pasteRowAt_pasted (hformat : src.format = dst.format) (hx : x.Inside dst.width src.width)
    (hy : y.Inside dst.height src.height) (hn : 0 < x.n) (hi : (i : Int) < y.n) :
    ∃ dst', pasteRowAt src x y i dst = .ok dst' ∧
      Pasted src dst dst' (x.s - x.d) (y.s - y.d) fun px py =>
        (py : Int) = y.d + i ∧ x.d ≤ px ∧ px < x.d + x.n := by
  obtain ⟨hxd, hxs, hxd', hxs'⟩ := hx
  obtain ⟨hyd, hys, hyd', hys'⟩ := hy
  obtain ⟨xd, xs, xn⟩ := x
  obtain ⟨yd, ys, yn⟩ := y
  dsimp only at *
  lift xd to ℕ using hxd
  lift xs to ℕ using hxs
  lift xn to ℕ using hn.le
  lift yd to ℕ using hyd
  lift ys to ℕ using hys
  have hsrow : (ys + i) * src.width + xs + xn ≤ src.width * src.height :=
    row_end_le (by omega) (by omega)
  have hdrow : (yd + i) * dst.width + xd + xn ≤ dst.width * dst.height :=
    row_end_le (by omega) (by omega)
  have hsindex : (xs : Int) + (i + ys) * src.width = ((ys + i) * src.width + xs : Nat) := by
    push_cast
    ring
  have hdindex : (xd : Int) + (i + yd) * dst.width = ((yd + i) * dst.width + xd : Nat) := by
    push_cast
    ring
  have hsroom : ((ys + i) * src.width + xs + xn) * src.format.pixelSize ≤ src.data.length := by
    rw [src.size_eq, Nat.mul_comm]
    exact Nat.mul_le_mul_left _ hsrow
  have hdroom : ((yd + i) * dst.width + xd + xn) * src.format.pixelSize ≤ dst.data.length := by
    rw [dst.size_eq, Nat.mul_comm, hformat]
    exact Nat.mul_le_mul_left _ hdrow
  have hread := read_eq hsrow
  have hbytes : ((src.data.drop (((ys + i) * src.width + xs) * src.format.pixelSize)).take
      (src.format.pixelSize * xn)).length = dst.format.pixelSize * xn := by
    have hend := Nat.mul_le_mul_left src.format.pixelSize hsrow
    rw [Nat.mul_add, Nat.mul_comm _ ((ys + i) * src.width + xs)] at hend
    rw [List.length_take, List.length_drop, src.size_eq, ← hformat]
    omega
  obtain ⟨dst', hwrite, hformat', hwidth', hheight', hdata⟩ := write_eq hdrow hbytes
  refine ⟨dst', ?_, hformat', hwidth', hheight', ?_, ?_⟩
  · rw [pasteRowAt]
    rw [hsindex, Int.toNat_natCast, hread]
    dsimp only [bind, Except.bind]
    rw [pasteRow, if_pos hformat]
    dsimp only
    rw [hdindex, hwrite]
  · rintro px py hpx hpy ⟨hrow, hfrom, hto⟩
    obtain rfl : py = yd + i := by omega
    obtain ⟨k, rfl⟩ : ∃ k, px = xd + k := Nat.exists_eq_add_of_le (by omega)
    have hpixel := copied_pixel hsroom hdroom ((yd + i) * dst.width + (xd + k))
    rw [if_pos (by omega)] at hpixel
    have hindex : (yd + i) * dst.width + (xd + k) - ((yd + i) * dst.width + xd) = k := by omega
    have hcolumn : ((xd + k : Nat) + ((xs : Int) - xd)).toNat = xs + k := by omega
    have hline : ((yd + i : Nat) + ((ys : Int) - yd)).toNat = ys + i := by omega
    rw [pixelAt, hdata, hwidth', hformat', ← hformat, hpixel, pixelAt, hindex, hcolumn, hline,
      Nat.add_assoc]
  · intro px py hpx hpy hout
    have hpixel := copied_pixel hsroom hdroom (py * dst.width + px)
    have hnot : ¬ ((yd + i) * dst.width + xd ≤ py * dst.width + px ∧
        py * dst.width + px < (yd + i) * dst.width + xd + xn) := by
      rw [mem_row_iff hpx (by omega)]
      omega
    rw [if_neg hnot] at hpixel
    rw [pixelAt, hdata, hwidth', hformat', ← hformat, hpixel, pixelAt, hformat]

/-- **The first rows** of an area. -/
theorem pasteRows_pasted (hformat : src.format = dst.format) (hx : x.Inside dst.width src.width)
    (hy : y.Inside dst.height src.height) (hn : 0 < x.n) (hi : (i : Int) ≤ y.n) :
    ∃ dst', pasteRows src x y i dst = .ok dst' ∧
      Pasted src dst dst' (x.s - x.d) (y.s - y.d) fun px py =>
        (y.d ≤ py ∧ py < y.d + i) ∧ x.d ≤ px ∧ px < x.d + x.n := by
  induction i with
  | zero =>
    refine ⟨dst, rfl, .none src dst ?_⟩
    rintro px py - - ⟨hrow, -⟩
    omega
  | succ i ih =>
    obtain ⟨dst', hrows, hpasted⟩ := ih (by omega)
    have hx' : x.Inside dst'.width src.width := hpasted.width.symm ▸ hx
    have hy' : y.Inside dst'.height src.height := hpasted.height.symm ▸ hy
    obtain ⟨dst'', hrow, hpasted'⟩ :=
      pasteRowAt_pasted (hformat.trans hpasted.format.symm) hx' hy' hn (i := i) (by omega)
    refine ⟨dst'', ?_, (hpasted.trans hpasted').congr fun px py _ _ => ?_⟩
    · rw [pasteRows, hrows]
      exact hrow
    · constructor
      · rintro (⟨hrows, hcolumns⟩ | ⟨hrow, hcolumns⟩)
        all_goals exact ⟨by omega, hcolumns⟩
      · rintro ⟨hrows, hcolumns⟩
        by_cases hlast : (py : Int) = y.d + i
        · exact .inr ⟨hlast, hcolumns⟩
        · exact .inl ⟨by omega, hcolumns⟩

/-- **The whole memory** of an image with the same dimensions. -/
theorem copyAll_pasted (hformat : src.format = dst.format) (hwidth : dst.width = src.width)
    (hheight : dst.height = src.height) :
    ∃ dst', (do
        let bytes ← src.read 0 (src.format.pixelSize * dst.width * dst.height)
        dst.write 0 bytes) = Except.ok dst' ∧
      Pasted src dst dst' 0 0 fun _ _ => True := by
  have hsroom : 0 + src.width * src.height ≤ src.width * src.height := by omega
  have hdroom : 0 + src.width * src.height ≤ dst.width * dst.height := by rw [hwidth, hheight]; omega
  have hread := read_eq hsroom
  have hall : (src.data.drop (0 * src.format.pixelSize)).take
      (src.format.pixelSize * (src.width * src.height)) = src.data := by
    rw [Nat.zero_mul, List.drop_zero, List.take_of_length_le src.size_eq.le]
  rw [hall, Nat.cast_zero, zero_mul] at hread
  obtain ⟨dst', hwrite, hformat', hwidth', hheight', hdata⟩ :=
    write_eq hdroom (src.size_eq.trans (by rw [hformat]))
  rw [Nat.cast_zero, zero_mul] at hwrite
  have hsame : dst'.data = src.data := by
    rw [hdata, overwrite, Nat.zero_mul, List.take_zero, List.nil_append, Nat.zero_add,
      src.size_eq, List.drop_of_length_le (by rw [dst.size_eq, hformat, hwidth, hheight]),
      List.append_nil]
  refine ⟨dst', ?_, hformat', hwidth', hheight', ?_, ?_⟩
  · rw [hwidth, hheight, Nat.mul_assoc, hread]
    exact hwrite
  · intro x y _ _ _
    rw [pixelAt, pixelAt, hsame, hwidth', hformat', hwidth, hformat, add_zero, add_zero,
      Int.toNat_natCast, Int.toNat_natCast]
  · intro x y _ _ hout
    exact absurd trivial hout

/-- **An area** that is inside of both images, in one go or row by row. -/
theorem pasteArea_pasted (hformat : src.format = dst.format) (hx : x.Inside dst.width src.width)
    (hy : y.Inside dst.height src.height) :
    ∃ dst', (if src.format = dst.format ∧ (x.n = dst.width ∧ dst.width = src.width ∧
          y.n = dst.height ∧ dst.height = src.height) then do
        let bytes ← src.read 0 (src.format.pixelSize * x.n.toNat * y.n.toNat)
        dst.write 0 bytes
      else if x.n > 0 then pasteRows src x y y.n.toNat dst
      else .ok dst) = .ok dst' ∧
      Pasted src dst dst' (x.s - x.d) (y.s - y.d) fun px py =>
        (x.d ≤ px ∧ px < x.d + x.n) ∧ y.d ≤ py ∧ py < y.d + y.n := by
  by_cases hall : src.format = dst.format ∧ (x.n = dst.width ∧ dst.width = src.width ∧
      y.n = dst.height ∧ dst.height = src.height)
  · -- Spans as long as both images begin where these do.
    obtain ⟨-, hxn, hwidth, hyn, hheight⟩ := hall
    have hstart : x.d = 0 ∧ x.s = 0 ∧ y.d = 0 ∧ y.s = 0 := by
      have := hx.d_nonneg
      have := hx.s_nonneg
      have := hx.d_end
      have := hx.s_end
      have := hy.d_nonneg
      have := hy.s_nonneg
      have := hy.d_end
      have := hy.s_end
      omega
    obtain ⟨hxd, hxs, hyd, hys⟩ := hstart
    obtain ⟨dst', hcopy, hpasted⟩ := copyAll_pasted hformat hwidth hheight
    rw [if_pos ⟨hformat, hxn, hwidth, hyn, hheight⟩, hxn, hyn, Int.toNat_natCast, Int.toNat_natCast,
      hxd, hxs, hyd, hys, Int.sub_zero]
    refine ⟨dst', hcopy, hpasted.congr fun px py hpx hpy => ⟨fun _ => ?_, fun _ => trivial⟩⟩
    exact ⟨⟨by omega, by omega⟩, by omega, by omega⟩
  rw [if_neg hall]
  split
  next hn =>
    by_cases hrows : 0 ≤ y.n
    · have hcount : ((y.n.toNat : Nat) : Int) = y.n := Int.toNat_of_nonneg hrows
      obtain ⟨dst', hpaste, hpasted⟩ := pasteRows_pasted hformat hx hy hn hcount.le
      refine ⟨dst', hpaste, hpasted.congr fun px py _ _ => ?_⟩
      omega
    · rw [Int.toNat_of_nonpos (by omega)]
      refine ⟨dst, rfl, .none src dst fun px py _ _ => ?_⟩
      omega
  · refine ⟨dst, rfl, .none src dst fun px py _ _ => ?_⟩
    omega

/-- **A paste** between images of one format has a result: in the destination, the pixels
whose source is in the source's rectangle and in the source image, and no others, are the
pixels there. -/
theorem paste_pasted (dst src : ColorImageData) (hformat : src.format = dst.format)
    (dx dy sx sy sw sh : Int) :
    ∃ dst', dst.paste src dx dy sx sy sw sh = .ok dst' ∧
      Pasted src dst dst' (sx - dx) (sy - dy) fun x y =>
        (Span.mk dx sx sw).Covers src.width x ∧ (Span.mk dy sy sh).Covers src.height y := by
  rw [paste]
  by_cases hout : (Span.mk dx sx sw).outside dst.width src.width ∨
      (Span.mk dy sy sh).outside dst.height src.height
  · rw [if_pos hout]
    refine ⟨dst, rfl, .none src dst ?_⟩
    rintro x y hx hy ⟨hcx, hcy⟩
    rcases hout with hout | hout
    · exact Span.not_covers_of_outside hout (by omega) hcx
    · exact Span.not_covers_of_outside hout (by omega) hcy
  rw [if_neg hout]
  obtain ⟨dst', hpaste, hpasted⟩ := pasteArea_pasted hformat
    (Span.normalize_inside ⟨dx, sx, sw⟩ dst.width src.width)
    (Span.normalize_inside ⟨dy, sy, sh⟩ dst.height src.height)
  rw [Span.normalize_shift, Span.normalize_shift] at hpasted
  refine ⟨dst', hpaste, hpasted.congr fun x y hx hy => ?_⟩
  rw [Span.normalize_covers _ (by omega), Span.normalize_covers _ (by omega)]

/-- A paste that hangs over on all sides. -/
theorem paste_pasted_overhanging :
    ∃ dst', paste ⟨.unorm .r8, 2, 1, [1, 2], rfl⟩ ⟨.unorm .r8, 1, 2, [3, 4], rfl⟩
        (-1) (-1) (-2) (-1) 9 9 = .ok dst' ∧
      Pasted ⟨.unorm .r8, 1, 2, [3, 4], rfl⟩ ⟨.unorm .r8, 2, 1, [1, 2], rfl⟩ dst' (-2 - -1) (-1 - -1)
        fun x y => (Span.mk (-1) (-2) 9).Covers 1 x ∧ (Span.mk (-1) (-1) 9).Covers 2 y :=
  paste_pasted ⟨.unorm .r8, 2, 1, [1, 2], rfl⟩ ⟨.unorm .r8, 1, 2, [3, 4], rfl⟩ rfl
    (-1) (-1) (-2) (-1) 9 9

end ColorImageData

end Lhatove.Image
