import Lhatove.Image.Paste
import Mathlib.Algebra.Order.Floor.Semifield

/-!
# Row functions of a paste

- `RowsAgree`: a row function writes what the slow path writes;
- `channels_iff`: rows are compared channel by channel;
- `rowsAgree_iff`: for which formats and rows they agree.
-/

namespace Lhatove.Image

open FloatValue (asuint32)
open ColorFormat List
open BitVec (eq_of_toNat_eq ofNat toNat toNat_ofNat)

/-- The row function for two formats, if `paste` has one, writes what it would write by
way of colors. -/
def RowsAgree (srcformat dstformat : ColorFormat) (src : List Byte) (w : Nat) : Prop :=
  ∀ function getfunction setfunction, rowFunction srcformat dstformat = some function →
    srcformat.pixelGetFunction = some getfunction →
    dstformat.pixelSetFunction = some setfunction →
    function src w = slowRow getfunction setfunction srcformat.pixelSize src w

/-- What a row has to be for the row function and the slow path to agree. -/
def AgreesWhen : ColorFormat → ColorFormat → List Byte → Nat → Prop
  -- Shifted to the left, a channel is not scaled; and `setPixelRGBA16` exchanges two.
  | .unorm .rgba8, .unorm .rgba16, src, w => ∀ x < w, ∀ c < 4, u8 src (4 * x + c) = 0
  -- Shifted to the right, a channel is not rounded.
  | .unorm .rgba16, .unorm .rgba8, src, w => ∀ x < w, ∀ c < 4,
    let v := (u16 src (4 * x + c)).toNat
    v / 256 ≤ v % 256 + 128 ∧ v % 256 ≤ v / 256 + 128
  | .float .rgba16, .unorm .rgba16, src, w => ∀ x < w,
    level 65535 (float16to32 (u16 src (4 * x + 1))) =
      level 65535 (float16to32 (u16 src (4 * x + 2)))
  | .float .rgba32, .unorm .rgba16, src, w => ∀ x < w,
    level 65535 (f32 src (4 * x + 1)) = level 65535 (f32 src (4 * x + 2))
  | _, _, _, _ => True

/-! ## Channels -/

/-- Pieces of one length are equal if their concatenations are. -/
theorem flatMap_range_eq_iff {f g : Nat → List Byte} {n : Nat} (hf : ∀ x, (f x).length = n)
    (hg : ∀ x, (g x).length = n) (w : Nat) :
    (List.range w).flatMap f = (List.range w).flatMap g ↔ ∀ x < w, f x = g x := by
  induction w with
  | zero => simp
  | succ w ih =>
    rw [range_succ, flatMap_append, flatMap_append, flatMap_singleton,
      flatMap_singleton]
    constructor
    · intro h x hx
      obtain ⟨hinit, hlast⟩ := append_inj' h (by rw [hf, hg])
      rcases Nat.lt_succ_iff_lt_or_eq.mp hx with hlt | rfl
      · exact ih.mp hinit x hlt
      · exact hlast
    · intro h
      rw [ih.mpr fun x hx => h x (Nat.lt_succ_of_lt hx), h w (Nat.lt_succ_self w)]

/-- Four channels, one after the other. -/
def pixelOf (channel : Nat → List Byte) : List Byte :=
  channel 0 ++ channel 1 ++ channel 2 ++ channel 3

theorem pixelOf_eq_iff {f g : Nat → List Byte} {n : Nat} (hf : ∀ c, (f c).length = n)
    (hg : ∀ c, (g c).length = n) : pixelOf f = pixelOf g ↔ ∀ c < 4, f c = g c := by
  have hrange : ∀ channel : Nat → List Byte,
      (List.range 4).flatMap channel = pixelOf channel := by
    intro channel
    simp [range_succ, pixelOf]
  rw [← hrange, ← hrange]
  exact flatMap_range_eq_iff hf hg 4

theorem pasteChannels_eq (w : Nat) (channel : Nat → List Byte) :
    pasteChannels w channel =
      (List.range w).flatMap fun x => pixelOf fun c => channel (4 * x + c) := by
  induction w with
  | zero => rfl
  | succ w ih =>
    rw [pasteChannels] at ih ⊢
    have hlast : .range ((w + 1) * 4) =
        .range (w * 4) ++ [w * 4, w * 4 + 1, w * 4 + 2, w * 4 + 3] := by
      simp [Nat.succ_mul, range_succ]
    rw [hlast, flatMap_append, ih, range_succ, flatMap_append]
    simp [pixelOf, Nat.mul_comm 4 w]

/-! ## The members of a pixel of a row -/

section

variable (src : List Byte) (x : Nat) {c : Nat} (hc : c < 4)
include src x hc

theorem u8_pixel : u8 ((src.drop (x * 4)).take 4) c = u8 src (4 * x + c) := by
  simp [u8, getD_eq_getElem?_getD, hc, getElem?_drop, Nat.mul_comm]

theorem u16_pixel : u16 ((src.drop (x * 8)).take 8) c = u16 src (4 * x + c) := by
  rw [u16, u16, drop_take, take_take, drop_drop, Nat.min_eq_left (by omega),
    show x * 8 + 2 * c = 2 * (4 * x + c) by omega]

theorem f32_pixel : f32 ((src.drop (x * 16)).take 16) c = f32 src (4 * x + c) := by
  rw [f32, f32, drop_take, take_take, drop_drop, Nat.min_eq_left (by omega),
    show x * 16 + 4 * c = 4 * (4 * x + c) by omega]

theorem rgba8_pixel : rgba8 ((src.drop (x * 4)).take 4) c = (u8 src (4 * x + c)).toNat := by
  rw [← u8_pixel src x hc]
  rfl

theorem rgba16_pixel : rgba16 ((src.drop (x * 8)).take 8) c = (u16 src (4 * x + c)).toNat := by
  rw [← u16_pixel src x hc]
  rfl

end

/-! ## Levels -/

theorem storeLE_inj {x y : BitVec 16} (h : storeLE 2 x = storeLE 2 y) : x = y := by
  have hload := congrArg (loadLE 16) h
  rwa [loadLE_storeLE _ (show 8 * 2 = 16 from rfl),
    loadLE_storeLE _ (show 8 * 2 = 16 from rfl)] at hload

theorem ofNat_level_inj {x y : ℚ} (h : storeLE 2 (ofNat 16 (quantize 65535 x)) =
    storeLE 2 (ofNat 16 (quantize 65535 y))) : quantize 65535 x = quantize 65535 y := by
  have hx := quantize_le 65535 x
  have hy := quantize_le 65535 y
  have heq := congrArg toNat (storeLE_inj h)
  rwa [toNat_ofNat, toNat_ofNat, Nat.mod_eq_of_lt (by omega),
    Nat.mod_eq_of_lt (by omega)] at heq

theorem quantize_widen (byte : Byte) :
    quantize 65535 ((byte.toNat : ℚ) / 255) = 257 * byte.toNat := by
  have hlevel := quantize_level (α := ℚ) (show 257 * byte.toNat ≤ 65535 by omega) (by decide)
  rw [← hlevel]
  congr 1
  push_cast
  ring

theorem quantize_narrow (word : BitVec 16) :
    quantize 255 ((word.toNat : ℚ) / 65535) = (2 * word.toNat + 257) / 514 := by
  have hnonneg : (0 : ℚ) ≤ (word.toNat : ℚ) / (65535 : ℕ) := level_nonneg ..
  have hle : (word.toNat : ℚ) / (65535 : ℕ) ≤ 1 := level_le_one (by omega)
  have hhalf : (word.toNat : ℚ) / 65535 * (255 : ℕ) + 1 / 2 = (2 * word.toNat + 257 : ℕ) / (514 : ℕ) := by
    push_cast
    ring
  rw [Nat.cast_ofNat] at hnonneg hle
  rw [quantize_eq, clamp01_of_mem hnonneg hle, hhalf, Nat.floor_div_eq_div]

/-- Rounded and cut off, a channel is the same if its bytes are not too far from each
other. -/
theorem narrow_eq_iff (v : Nat) :
    v / 256 = (2 * v + 257) / 514 ↔ v / 256 ≤ v % 256 + 128 ∧ v % 256 ≤ v / 256 + 128 := by
  omega

/-! ## By way of colors -/

/-- The formats with a row function: four channels of one size. -/
inductive Wide : ColorFormat → Prop
  | rgba8 : Wide (.unorm .rgba8)
  | rgba16 : Wide (.unorm .rgba16)
  | rgba16f : Wide (.float .rgba16)
  | rgba32f : Wide (.float .rgba32)

/-- A channel of a row, as a number. -/
def ColorFormat.channel : ColorFormat → List Byte → Nat → FloatValue
  | .unorm .rgba8, src, i => .num ((u8 src i).toNat / 255)
  | .unorm .rgba16, src, i => .num ((u16 src i).toNat / 65535)
  | .float .rgba16, src, i => float16to32 (u16 src i)
  | .float .rgba32, src, i => f32 src i
  | _, _, _ => .num 0

/-- A number, as a channel. -/
def ColorFormat.encode : ColorFormat → FloatValue → List Byte
  | .unorm .rgba8, x => [BitVec.ofNat 8 (level 255 x)]
  | .unorm .rgba16, x => storeLE 2 (BitVec.ofNat 16 (level 65535 x))
  | .float .rgba16, x => storeLE 2 (float32to16 x)
  | .float .rgba32, x => storeLE 4 (asuint32 x)
  | _, _ => []

/-- The channel that is set in a place: `setPixelRGBA16` exchanges two. -/
def ColorFormat.order (format : ColorFormat) (c : Nat) : Nat :=
  if format = .unorm .rgba16 then if c = 1 then 2 else if c = 2 then 1 else c else c

theorem Wide.get {format : ColorFormat} (h : Wide format) :
    ∃ getfunction, format.pixelGetFunction = some getfunction ∧ ∀ src x,
      getfunction ((src.drop (x * format.pixelSize)).take format.pixelSize) =
        ⟨format.channel src (4 * x + 0), format.channel src (4 * x + 1),
          format.channel src (4 * x + 2), format.channel src (4 * x + 3)⟩ := by
  cases h with
  | rgba8 =>
    refine ⟨_, rfl, fun src x => ?_⟩
    have h := fun c hc => @rgba8_pixel src x c hc
    simp only [UnormFormat.getFloat, UnormFormat.pixelGetFunction, getPixelRGBA8,
      ColorFormat.pixelSize, UnormFormat.pixelSize, ColorFormat.channel, h, Nat.reduceLT]
  | rgba16 =>
    refine ⟨_, rfl, fun src x => ?_⟩
    have h := fun c hc => @rgba16_pixel src x c hc
    simp only [UnormFormat.getFloat, UnormFormat.pixelGetFunction, getPixelRGBA16,
      ColorFormat.pixelSize, UnormFormat.pixelSize, ColorFormat.channel, h, Nat.reduceLT]
  | rgba16f =>
    refine ⟨_, rfl, fun src x => ?_⟩
    have h := fun c hc => @u16_pixel src x c hc
    simp only [getPixelRGBA16F, ColorFormat.pixelSize, FloatFormat.pixelSize,
      ColorFormat.channel, h, Nat.reduceLT]
  | rgba32f =>
    refine ⟨_, rfl, fun src x => ?_⟩
    have h := fun c hc => @f32_pixel src x c hc
    simp only [getPixelRGBA32F, ColorFormat.pixelSize, FloatFormat.pixelSize,
      ColorFormat.channel, h, Nat.reduceLT]

theorem Wide.set {format : ColorFormat} (h : Wide format) :
    ∃ setfunction, format.pixelSetFunction = some setfunction ∧ ∀ v : Nat → FloatValue,
      setfunction ⟨v 0, v 1, v 2, v 3⟩ = pixelOf fun c => format.encode (v (format.order c)) := by
  cases h with
  | rgba8 => exact ⟨_, rfl, fun v => rfl⟩
  | rgba16 =>
    refine ⟨_, rfl, fun v => ?_⟩
    simp [UnormFormat.setFloat, UnormFormat.pixelSetFunction, setPixelRGBA16, putRgba16, pixelOf,
      ColorFormat.encode, ColorFormat.order, level]
  | rgba16f =>
    refine ⟨_, rfl, fun v => ?_⟩
    simp [setPixelRGBA16F, putRgba16f, pixelOf, ColorFormat.encode, ColorFormat.order]
  | rgba32f =>
    refine ⟨_, rfl, fun v => ?_⟩
    simp [setPixelRGBA32F, putRgba32f, pixelOf, ColorFormat.encode, ColorFormat.order]

theorem Wide.encode_length {format : ColorFormat} (h : Wide format) :
    ∃ n, ∀ x, (format.encode x).length = n := by
  cases h with
  | rgba8 => exact ⟨1, fun _ => rfl⟩
  | rgba16 | rgba16f => exact ⟨2, fun _ => storeLE_length ..⟩
  | rgba32f => exact ⟨4, fun _ => storeLE_length ..⟩

/-- **Rows are compared channel by channel.** -/
theorem rowsAgree_iff_channels {srcformat dstformat : ColorFormat} (hs : Wide srcformat)
    (hd : Wide dstformat) {channel : List Byte → Nat → List Byte}
    (hfunction : rowFunction srcformat dstformat = some fun src w => pasteChannels w (channel src))
    (hlength : ∀ src i x, (channel src i).length = (dstformat.encode x).length)
    (src : List Byte) (w : Nat) :
    RowsAgree srcformat dstformat src w ↔ ∀ x < w, ∀ c < 4,
      channel src (4 * x + c) =
        dstformat.encode (srcformat.channel src (4 * x + dstformat.order c)) := by
  obtain ⟨getfunction, hget, hgot⟩ := hs.get
  obtain ⟨setfunction, hset, hput⟩ := hd.set
  obtain ⟨n, hn⟩ := hd.encode_length
  have hslow : slowRow getfunction setfunction srcformat.pixelSize src w =
      (List.range w).flatMap fun x => pixelOf fun c =>
        dstformat.encode (srcformat.channel src (4 * x + dstformat.order c)) := by
    refine flatMap_congr fun x _ => ?_
    rw [hgot]
    exact hput fun c => srcformat.channel src (4 * x + c)
  have hchannel : ∀ i, (channel src i).length = n := fun i => (hlength src i (.num 0)).trans (hn _)
  have hpixel : ∀ {f : Nat → List Byte}, (∀ c, (f c).length = n) →
      (pixelOf f).length = n + n + n + n := by
    intro f hf
    simp [pixelOf, hf, Nat.add_assoc]
  have hrows : RowsAgree srcformat dstformat src w ↔ pasteChannels w (channel src) =
      slowRow getfunction setfunction srcformat.pixelSize src w := by
    constructor
    · intro h
      exact h _ _ _ hfunction hget hset
    · rintro h function getfunction' setfunction' hfunction' hget' hset'
      cases hfunction.symm.trans hfunction'
      cases hget.symm.trans hget'
      cases hset.symm.trans hset'
      exact h
  rw [hrows, pasteChannels_eq, hslow, flatMap_range_eq_iff (fun x => hpixel fun c => hchannel _)
    fun x => hpixel fun c => hn _]
  exact forall₂_congr fun x _ => pixelOf_eq_iff (fun c => hchannel _) fun c => hn _

/-! ## The pairs of formats -/

/-- Channels that are encoded as what they are, for formats that keep their order. -/
theorem rowsAgree_of_encode {srcformat dstformat : ColorFormat} (hs : Wide srcformat)
    (hd : Wide dstformat) (horder : dstformat ≠ .unorm .rgba16)
    (hfunction : rowFunction srcformat dstformat =
      some fun src w => pasteChannels w fun i => dstformat.encode (srcformat.channel src i))
    (src : List Byte) (w : Nat) : RowsAgree srcformat dstformat src w := by
  obtain ⟨n, hn⟩ := hd.encode_length
  rw [rowsAgree_iff_channels hs hd hfunction fun _ _ _ => (hn _).trans (hn _).symm]
  intro x _ c _
  rw [ColorFormat.order, if_neg horder]

theorem rowsAgree_rgba16_iff {srcformat : ColorFormat} (hs : Wide srcformat)
    (hfunction : rowFunction srcformat (.unorm .rgba16) = some fun src w =>
      pasteChannels w fun i => (unorm .rgba16).encode (srcformat.channel src i))
    (src : List Byte) (w : Nat) :
    RowsAgree srcformat (.unorm .rgba16) src w ↔ ∀ x < w,
      level 65535 (srcformat.channel src (4 * x + 1)) =
        level 65535 (srcformat.channel src (4 * x + 2)) := by
  rw [rowsAgree_iff_channels hs .rgba16 hfunction fun _ _ _ =>
    (storeLE_length ..).trans (storeLE_length ..).symm]
  refine forall₂_congr fun x _ => ⟨fun h => ?_, fun h c hc => ?_⟩
  · exact ofNat_level_inj (h 1 (by decide))
  · have hcases : c = 0 ∨ c = 1 ∨ c = 2 ∨ c = 3 := by omega
    rcases hcases with rfl | rfl | rfl | rfl
    · rfl
    · exact congrArg (fun l => storeLE 2 (ofNat 16 l)) h
    · exact congrArg (fun l => storeLE 2 (ofNat 16 l)) h.symm
    · rfl

theorem rowsAgree_widen_iff (src : List Byte) (w : Nat) :
    RowsAgree (.unorm .rgba8) (.unorm .rgba16) src w ↔
      ∀ x < w, ∀ c < 4, u8 src (4 * x + c) = 0 := by
  rw [rowsAgree_iff_channels .rgba8 .rgba16 rfl fun _ _ _ =>
    (storeLE_length ..).trans (storeLE_length ..).symm]
  have hchannel : ∀ i j : Nat, storeLE 2 ((u8 src i).setWidth 16 <<< 8) =
      (unorm .rgba16).encode ((unorm .rgba8).channel src j) ↔
        256 * (u8 src i).toNat = 257 * (u8 src j).toNat := by
    intro i j
    have hlevel : level 65535 ((unorm .rgba8).channel src j) = 257 * (u8 src j).toNat :=
      quantize_widen _
    have hshift : ((u8 src i).setWidth 16 <<< 8).toNat = 256 * (u8 src i).toNat := by
      rw [BitVec.toNat_shiftLeft, BitVec.toNat_setWidth, Nat.mod_eq_of_lt (by omega),
        Nat.shiftLeft_eq, Nat.mod_eq_of_lt (by omega), Nat.mul_comm]
    rw [ColorFormat.encode, hlevel]
    constructor
    · intro h
      have heq := congrArg toNat (storeLE_inj h)
      rwa [hshift, toNat_ofNat, Nat.mod_eq_of_lt (by omega)] at heq
    · intro h
      congr 1
      refine eq_of_toNat_eq ?_
      rw [hshift, toNat_ofNat, Nat.mod_eq_of_lt (by omega), h]
  refine forall₂_congr fun x _ => ?_
  simp only [hchannel]
  constructor
  · intro h c hc
    have hlt := fun i => (u8 src i).isLt
    have hscaled := h c hc
    refine eq_of_toNat_eq ?_
    show (u8 src (4 * x + c)).toNat = 0
    omega
  · intro h c hc
    have horder : (unorm .rgba16).order c < 4 := by
      rw [ColorFormat.order, if_pos rfl]
      split_ifs <;> omega
    rw [h c hc, h _ horder]
    rfl

theorem rowsAgree_narrow_iff (src : List Byte) (w : Nat) :
    RowsAgree (.unorm .rgba16) (.unorm .rgba8) src w ↔ ∀ x < w, ∀ c < 4,
      (u16 src (4 * x + c)).toNat / 256 ≤ (u16 src (4 * x + c)).toNat % 256 + 128 ∧
        (u16 src (4 * x + c)).toNat % 256 ≤ (u16 src (4 * x + c)).toNat / 256 + 128 := by
  rw [rowsAgree_iff_channels .rgba16 .rgba8 rfl fun _ _ _ => rfl]
  refine forall₂_congr fun x _ => forall₂_congr fun c _ => ?_
  rw [← narrow_eq_iff]
  have hlevel : level 255 ((unorm .rgba16).channel src (4 * x + c)) =
      (2 * (u16 src (4 * x + c)).toNat + 257) / 514 := quantize_narrow _
  have hshift : ((u16 src (4 * x + c) >>> 8).setWidth 8).toNat =
      (u16 src (4 * x + c)).toNat / 256 := by
    rw [BitVec.toNat_setWidth, BitVec.toNat_ushiftRight, Nat.shiftRight_eq_div_pow,
      Nat.mod_eq_of_lt (by omega)]
  rw [show (unorm .rgba8).order c = c from rfl, ColorFormat.encode, hlevel]
  constructor
  · intro h
    have heq := congrArg toNat (singleton_inj.mp h)
    rwa [hshift, toNat_ofNat, Nat.mod_eq_of_lt (by omega)] at heq
  · intro h
    congr 1
    refine eq_of_toNat_eq ?_
    rw [hshift, toNat_ofNat, Nat.mod_eq_of_lt (by omega), h]

/-- **Which rows agree**, for each pair of formats. -/
theorem rowsAgree_iff (srcformat dstformat : ColorFormat) (src : List Byte) (w : Nat) :
    RowsAgree srcformat dstformat src w ↔ AgreesWhen srcformat dstformat src w := by
  rcases hfunction : rowFunction srcformat dstformat with _ | function
  · -- There is no row function, and nothing to agree.
    refine iff_of_true (fun _ _ _ h => by rw [hfunction] at h; cases h) ?_
    unfold AgreesWhen
    split
    · cases hfunction
    · cases hfunction
    · cases hfunction
    · cases hfunction
    · trivial
  unfold rowFunction at hfunction
  split at hfunction
  · exact rowsAgree_widen_iff src w
  · exact iff_of_true (rowsAgree_of_encode .rgba8 .rgba16f nofun rfl src w) trivial
  · exact iff_of_true (rowsAgree_of_encode .rgba8 .rgba32f nofun rfl src w) trivial
  · exact rowsAgree_narrow_iff src w
  · exact iff_of_true (rowsAgree_of_encode .rgba16 .rgba16f nofun rfl src w) trivial
  · exact iff_of_true (rowsAgree_of_encode .rgba16 .rgba32f nofun rfl src w) trivial
  · exact iff_of_true (rowsAgree_of_encode .rgba16f .rgba8 nofun rfl src w) trivial
  · exact rowsAgree_rgba16_iff .rgba16f rfl src w
  · exact iff_of_true (rowsAgree_of_encode .rgba16f .rgba32f nofun rfl src w) trivial
  · exact iff_of_true (rowsAgree_of_encode .rgba32f .rgba8 nofun rfl src w) trivial
  · exact rowsAgree_rgba16_iff .rgba32f rfl src w
  · exact iff_of_true (rowsAgree_of_encode .rgba32f .rgba16f nofun rfl src w) trivial
  · cases hfunction

/-- An opaque white pixel gets the levels 65280, and not 65535. -/
theorem not_always_agree :
    ¬ RowsAgree (.unorm .rgba8) (.unorm .rgba16) [0xFF, 0xFF, 0xFF, 0xFF] 1 := by
  rw [rowsAgree_widen_iff]
  intro h
  exact absurd (h 0 (by decide) 0 (by decide)) (by decide)

end Lhatove.Image
