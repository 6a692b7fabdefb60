import Lhatove.Image.ImageData

/-!
# Pixels that are set and got

- `pixelGetFunction_set`: a color is got as the nearest one that the format has;
- `pixelSetFunction_get`: a pixel is set to what it was;
- `roundTrips_iff`: both, for a pixel of image data; RGBA16 exchanges green and
  blue.
-/

namespace Lhatove.Image

open BitField List UnormFormat
open BitVec (isLt ofNat ofNat_toNat setWidth_eq toNat_ofNat)

/-! ## Channels -/

inductive Channel
  | r
  | g
  | b
  | a
  deriving DecidableEq

/-- A channel of a color. -/
def Colorf.get (c : Colorf) : Channel → ℚ
  | .r => c.r
  | .g => c.g
  | .b => c.b
  | .a => c.a

/-- The highest level of a channel; 0 where the format has no such channel. -/
def UnormFormat.max : UnormFormat → Channel → Nat
  | .r8, .r => 255
  | .rg8, .r => 255
  | .rg8, .g => 255
  | .rgba8, _ => 255
  | .r16, .r => 65535
  | .rg16, .r => 65535
  | .rg16, .g => 65535
  | .rgba16, _ => 65535
  | .rgba4, _ => 15
  | .rgb5a1, .a => 1
  | .rgb5a1, _ => 31
  | .rgb565, .r => 31
  | .rgb565, .g => 63
  | .rgb565, .b => 31
  | .rgb10a2, .a => 3
  | .rgb10a2, _ => 1023
  | _, _ => 0

/-- What a channel is that a format does not have. -/
def Channel.default : Channel → ℚ
  | .a => 1
  | _ => 0

/-- The values of a channel in a format. -/
def UnormFormat.values (format : UnormFormat) (channel : Channel) : Set ℚ :=
  if format.max channel = 0 then {channel.default} else levels (format.max channel)

/-- A color with the nearest values that a format has. -/
def NearestColor (format : UnormFormat) (c d : Colorf) : Prop :=
  ∀ channel, Nearest (format.values channel) (c.get channel) (d.get channel)

/-- The value that is stored for a channel. -/
def UnormFormat.store (format : UnormFormat) (channel : Channel) (x : ℚ) : ℚ :=
  if format.max channel = 0 then channel.default
  else quantize (format.max channel) x / format.max channel

theorem store_nearest (format : UnormFormat) (channel : Channel) (x : ℚ) :
    Nearest (format.values channel) x (format.store channel x) := by
  rw [UnormFormat.values, store]
  split_ifs with hmax
  · exact nearest_singleton x _
  · exact quantize_nearest (Nat.pos_of_ne_zero hmax) x

/-- The color that `setPixel` stores the channels of. -/
def UnormFormat.order (format : UnormFormat) (c : Colorf) : Colorf :=
  if format = .rgba16 then ⟨c.r, c.b, c.g, c.a⟩ else c

/-! ## Members of a pixel -/

theorem rgba8_put {values : List ℚ} {i : Nat} (h : i < values.length) :
    rgba8 (putRgba8 values) i = quantize 255 values[i] := by
  have hle := quantize_le 255 values[i]
  rw [rgba8, putRgba8, getD_eq_getElem _ _ (by rwa [length_map]), getElem_map,
    toNat_ofNat, Nat.mod_eq_of_lt (by omega)]

theorem rgba16_put {values : List ℚ} {i : Nat} (h : i < values.length) :
    rgba16 (putRgba16 values) i = quantize 65535 values[i] := by
  have hle := quantize_le 65535 values[i]
  rw [rgba16, putRgba16, drop_flatMap_storeLE (fun x => ofNat 16 (quantize 65535 x)) values i h,
    loadLE_storeLE _ (show 8 * 2 = 16 from rfl), toNat_ofNat, Nat.mod_eq_of_lt (by omega)]

theorem putRgba8_get (p : List Byte) :
    putRgba8 ((List.range p.length).map fun i => (rgba8 p i : ℚ) / 255) = p := by
  refine ext_getElem (by simp [putRgba8]) fun i _ hi => ?_
  simp only [putRgba8, getElem_map, getElem_range]
  have hlevel : quantize 255 ((rgba8 p i : ℚ) / (255 : ℕ)) = rgba8 p i :=
    quantize_level (by rw [rgba8]; omega) (by decide)
  rw [Nat.cast_ofNat] at hlevel
  rw [hlevel, rgba8, ofNat_toNat, setWidth_eq, getD_eq_getElem _ _ hi]

theorem putRgba16_get {count : Nat} {p : List Byte} (h : p.length = 2 * count) :
    putRgba16 ((List.range count).map fun i => (rgba16 p i : ℚ) / 65535) = p := by
  rw [putRgba16, flatMap_map]
  conv_rhs => rw [← flatMap_pieces count p h]
  refine flatMap_congr fun i hi => ?_
  have hi := mem_range.mp hi
  have hlevel : quantize 65535 ((rgba16 p i : ℚ) / (65535 : ℕ)) = rgba16 p i :=
    quantize_level (by rw [rgba16]; omega) (by decide)
  rw [Nat.cast_ofNat] at hlevel
  rw [hlevel, rgba16, ofNat_toNat, setWidth_eq, storeLE_loadLE rfl]
  rw [length_take, length_drop, h]
  omega

theorem packed16_put {word : Nat} (h : word < 2 ^ 16) : packed16 (putPacked16 word) = word := by
  rw [packed16, putPacked16, take_of_length_le (by rw [storeLE_length]),
    loadLE_storeLE _ (show 8 * 2 = 16 from rfl), toNat_ofNat, Nat.mod_eq_of_lt h]

theorem packed32_put {word : Nat} (h : word < 2 ^ 32) : packed32 (putPacked32 word) = word := by
  rw [packed32, putPacked32, take_of_length_le (by rw [storeLE_length]),
    loadLE_storeLE _ (show 8 * 4 = 32 from rfl), toNat_ofNat, Nat.mod_eq_of_lt h]

theorem putPacked16_get {p : List Byte} (h : p.length = 2) : putPacked16 (packed16 p) = p := by
  rw [putPacked16, packed16, ofNat_toNat, setWidth_eq,
    take_of_length_le (by rw [h]), storeLE_loadLE rfl h]

theorem putPacked32_get {p : List Byte} (h : p.length = 4) : putPacked32 (packed32 p) = p := by
  rw [putPacked32, packed32, ofNat_toNat, setWidth_eq,
    take_of_length_le (by rw [h]), storeLE_loadLE rfl h]

/-! ## Packed words -/

theorem quantize_lt {n max : Nat} (h : max = 2 ^ n - 1) (x : ℚ) : quantize max x < 2 ^ n := by
  have hle := quantize_le max x
  have hpos : 0 < 2 ^ n := by positivity
  omega

/-- The fields of a packed pixel, for the formats that have them. -/
def UnormFormat.fields (format : UnormFormat) (c : Colorf) : List BitField :=
  match format with
  | .rgba4 => [⟨12, 4, quantize 0xF c.r⟩, ⟨8, 4, quantize 0xF c.g⟩, ⟨4, 4, quantize 0xF c.b⟩,
      ⟨0, 4, quantize 0xF c.a⟩]
  | .rgb5a1 => [⟨11, 5, quantize 0x1F c.r⟩, ⟨6, 5, quantize 0x1F c.g⟩, ⟨1, 5, quantize 0x1F c.b⟩,
      ⟨0, 1, quantize 0x1 c.a⟩]
  | .rgb565 => [⟨11, 5, quantize 0x1F c.r⟩, ⟨5, 6, quantize 0x3F c.g⟩, ⟨0, 5, quantize 0x1F c.b⟩]
  | .rgb10a2 => [⟨0, 10, quantize 0x3FF c.r⟩, ⟨10, 10, quantize 0x3FF c.g⟩,
      ⟨20, 10, quantize 0x3FF c.b⟩, ⟨30, 2, quantize 0x3 c.a⟩]
  | _ => []

theorem quantize_fits {s n k max : Nat} (hmax : max = 2 ^ n - 1) (hroom : s + n ≤ k) (x : ℚ) :
    (⟨s, n, quantize max x⟩ : BitField).Fits k :=
  ⟨quantize_lt hmax x, hroom⟩

theorem fields_fit (format : UnormFormat) (c : Colorf) :
    ∀ f ∈ format.fields c, f.Fits (8 * format.pixelSize) := by
  cases format
  case rgba4 | rgb5a1 | rgb10a2 =>
    simp only [fields, forall_mem_cons]
    exact ⟨quantize_fits (by decide) (by decide) _, quantize_fits (by decide) (by decide) _,
      quantize_fits (by decide) (by decide) _, quantize_fits (by decide) (by decide) _, nofun⟩
  case rgb565 =>
    simp only [fields, forall_mem_cons]
    exact ⟨quantize_fits (by decide) (by decide) _, quantize_fits (by decide) (by decide) _,
      quantize_fits (by decide) (by decide) _, nofun⟩
  all_goals nofun

theorem fields_apart (format : UnormFormat) (c : Colorf) :
    (format.fields c).Pairwise BitField.Apart := by
  cases format <;> simp [fields, BitField.Apart]

theorem getBits_word {format : UnormFormat} {c : Colorf} {f : BitField} (hf : f ∈ format.fields c) :
    getBits (BitField.word (format.fields c)) f.shift (2 ^ f.width - 1) =
      (f.value : ℚ) / (2 ^ f.width - 1 : ℕ) := by
  rw [getBits, word_get (fields_fit format c) (fields_apart format c) hf]

theorem putPacked_rgba4 (c : Colorf) :
    setPixelRGBA4 c = putPacked16 (BitField.word (UnormFormat.rgba4.fields c)) := by
  simp only [setPixelRGBA4, fields, BitField.word, Nat.or_assoc, Nat.or_zero]

theorem putPacked_rgb5a1 (c : Colorf) :
    setPixelRGB5A1 c = putPacked16 (BitField.word (UnormFormat.rgb5a1.fields c)) := by
  simp only [setPixelRGB5A1, fields, BitField.word, Nat.or_assoc, Nat.or_zero]

theorem putPacked_rgb565 (c : Colorf) :
    setPixelRGB565 c = putPacked16 (BitField.word (UnormFormat.rgb565.fields c)) := by
  simp only [setPixelRGB565, fields, BitField.word, Nat.or_assoc, Nat.or_zero]

theorem putPacked_rgb10a2 (c : Colorf) :
    setPixelRGB10A2 c = putPacked32 (BitField.word (UnormFormat.rgb10a2.fields c)) := by
  simp only [setPixelRGB10A2, fields, BitField.word, Nat.or_assoc, Nat.or_zero]

/-! ## A color that is set -/

theorem store_eq {format : UnormFormat} {channel : Channel} {max : Nat}
    (hmax : format.max channel = max) (hne : max ≠ 0) (x : ℚ) :
    format.store channel x = quantize max x / max := by
  rw [store, hmax, if_neg hne]

theorem rgba8_store {values : List ℚ} {i : Nat} {format : UnormFormat} {channel : Channel} {x : ℚ}
    (hmax : format.max channel = 255) (hx : values[i]? = some x) :
    (rgba8 (putRgba8 values) i : ℚ) / 255 = format.store channel x := by
  obtain ⟨hi, rfl⟩ := List.getElem?_eq_some_iff.mp hx
  rw [rgba8_put hi, store_eq hmax (by decide), Nat.cast_ofNat]

theorem rgba16_store {values : List ℚ} {i : Nat} {format : UnormFormat} {channel : Channel} {x : ℚ}
    (hmax : format.max channel = 65535) (hx : values[i]? = some x) :
    (rgba16 (putRgba16 values) i : ℚ) / 65535 = format.store channel x := by
  obtain ⟨hi, rfl⟩ := List.getElem?_eq_some_iff.mp hx
  rw [rgba16_put hi, store_eq hmax (by decide), Nat.cast_ofNat]

theorem bits_store {format : UnormFormat} {channel : Channel} {c : Colorf} {shift width mask : Nat}
    {x : ℚ} (hmax : format.max channel = mask) (hmask : mask = 2 ^ width - 1) (hne : mask ≠ 0)
    (hf : ⟨shift, width, quantize mask x⟩ ∈ format.fields c) :
    getBits (BitField.word (format.fields c)) shift mask = format.store channel x := by
  have hget := getBits_word hf
  rw [← hmask] at hget
  rw [hget, store_eq hmax hne]

theorem packed16_word {format : UnormFormat} (c : Colorf) (hsize : format.pixelSize = 2) :
    packed16 (putPacked16 (BitField.word (format.fields c))) = BitField.word (format.fields c) := by
  refine packed16_put (word_lt fun f hf => ?_)
  have hfit := fields_fit format c f hf
  rwa [hsize] at hfit

/-- **A color that is set** is got as the levels of its channels. -/
theorem pixelGetFunction_set (format : UnormFormat) (c : Colorf) (channel : Channel) :
    (format.pixelGetFunction (format.pixelSetFunction c)).get channel =
      format.store channel ((format.order c).get channel) := by
  cases format with
  | r8 =>
    cases channel with
    | r => exact rgba8_store rfl rfl
    | _ => rfl
  | rg8 =>
    cases channel with
    | r | g => exact rgba8_store rfl rfl
    | _ => rfl
  | rgba8 => cases channel <;> exact rgba8_store rfl rfl
  | r16 =>
    cases channel with
    | r => exact rgba16_store rfl rfl
    | _ => rfl
  | rg16 =>
    cases channel with
    | r | g => exact rgba16_store rfl rfl
    | _ => rfl
  | rgba16 => cases channel <;> exact rgba16_store rfl rfl
  | rgba4 =>
    show (getPixelRGBA4 (setPixelRGBA4 c)).get channel = _
    rw [putPacked_rgba4, getPixelRGBA4, packed16_word c rfl]
    cases channel with
    | r => exact bits_store rfl rfl (by decide) (.head _)
    | g => exact bits_store rfl rfl (by decide) (.tail _ (.head _))
    | b => exact bits_store rfl rfl (by decide) (.tail _ (.tail _ (.head _)))
    | a => exact bits_store rfl rfl (by decide) (.tail _ (.tail _ (.tail _ (.head _))))
  | rgb5a1 =>
    show (getPixelRGB5A1 (setPixelRGB5A1 c)).get channel = _
    rw [putPacked_rgb5a1, getPixelRGB5A1, packed16_word c rfl]
    cases channel with
    | r => exact bits_store rfl rfl (by decide) (.head _)
    | g => exact bits_store rfl rfl (by decide) (.tail _ (.head _))
    | b => exact bits_store rfl rfl (by decide) (.tail _ (.tail _ (.head _)))
    | a => exact bits_store rfl rfl (by decide) (.tail _ (.tail _ (.tail _ (.head _))))
  | rgb565 =>
    show (getPixelRGB565 (setPixelRGB565 c)).get channel = _
    rw [putPacked_rgb565, getPixelRGB565, packed16_word c rfl]
    cases channel with
    | r => exact bits_store rfl rfl (by decide) (.head _)
    | g => exact bits_store rfl rfl (by decide) (.tail _ (.head _))
    | b => exact bits_store rfl rfl (by decide) (.tail _ (.tail _ (.head _)))
    | a => rfl
  | rgb10a2 =>
    show (getPixelRGB10A2 (setPixelRGB10A2 c)).get channel = _
    rw [putPacked_rgb10a2, getPixelRGB10A2, packed32_put (word_lt (fields_fit .rgb10a2 c))]
    cases channel with
    | r => exact bits_store rfl rfl (by decide) (.head _)
    | g => exact bits_store rfl rfl (by decide) (.tail _ (.head _))
    | b => exact bits_store rfl rfl (by decide) (.tail _ (.tail _ (.head _)))
    | a => exact bits_store rfl rfl (by decide) (.tail _ (.tail _ (.tail _ (.head _))))

/-! ## A pixel that is set to what it is -/

theorem quantize_getBits {word s n mask : Nat} (hmask : mask = 2 ^ n - 1) (hpos : 0 < mask) :
    quantize mask (getBits word s mask) = word / 2 ^ s % 2 ^ n := by
  rw [getBits, quantize_level Nat.and_le_right hpos, hmask, Nat.and_two_pow_sub_one_eq_mod,
    Nat.shiftRight_eq_div_pow]

theorem word_getBits (format : UnormFormat) (c : Colorf) {word s n mask : Nat} {x : ℚ}
    (hmask : mask = 2 ^ n - 1) (hpos : 0 < mask) (hf : ⟨s, n, quantize mask x⟩ ∈ format.fields c)
    (hx : x = getBits word s mask) :
    BitField.word (format.fields c) / 2 ^ s % 2 ^ n = word / 2 ^ s % 2 ^ n := by
  have hget := word_get (fields_fit format c) (fields_apart format c) hf
  rwa [Nat.and_two_pow_sub_one_eq_mod, Nat.shiftRight_eq_div_pow, hx, quantize_getBits hmask hpos]
    at hget

theorem packed16_lt (p : List Byte) : packed16 p < 2 ^ 16 := isLt _

theorem packed32_lt (p : List Byte) : packed32 p < 2 ^ 32 := isLt _

theorem word_rgba4 (p : List Byte) :
    BitField.word (UnormFormat.rgba4.fields (getPixelRGBA4 p)) = packed16 p := by
  have hlt := packed16_lt p
  have hword : _ < 2 ^ 16 := word_lt (fields_fit .rgba4 (getPixelRGBA4 p))
  have hget := @word_getBits .rgba4 (getPixelRGBA4 p) (packed16 p)
  have hr := @hget 12 4 0xF _ rfl (by decide) (.head _) rfl
  have hg := @hget 8 4 0xF _ rfl (by decide) (.tail _ (.head _)) rfl
  have hb := @hget 4 4 0xF _ rfl (by decide) (.tail _ (.tail _ (.head _))) rfl
  have ha := @hget 0 4 0xF _ rfl (by decide) (.tail _ (.tail _ (.tail _ (.head _)))) rfl
  omega

theorem word_rgb5a1 (p : List Byte) :
    BitField.word (UnormFormat.rgb5a1.fields (getPixelRGB5A1 p)) = packed16 p := by
  have hlt := packed16_lt p
  have hword : _ < 2 ^ 16 := word_lt (fields_fit .rgb5a1 (getPixelRGB5A1 p))
  have hget := @word_getBits .rgb5a1 (getPixelRGB5A1 p) (packed16 p)
  have hr := @hget 11 5 0x1F _ rfl (by decide) (.head _) rfl
  have hg := @hget 6 5 0x1F _ rfl (by decide) (.tail _ (.head _)) rfl
  have hb := @hget 1 5 0x1F _ rfl (by decide) (.tail _ (.tail _ (.head _))) rfl
  have ha := @hget 0 1 0x1 _ rfl (by decide) (.tail _ (.tail _ (.tail _ (.head _)))) rfl
  omega

theorem word_rgb565 (p : List Byte) :
    BitField.word (UnormFormat.rgb565.fields (getPixelRGB565 p)) = packed16 p := by
  have hlt := packed16_lt p
  have hword : _ < 2 ^ 16 := word_lt (fields_fit .rgb565 (getPixelRGB565 p))
  have hget := @word_getBits .rgb565 (getPixelRGB565 p) (packed16 p)
  have hr := @hget 11 5 0x1F _ rfl (by decide) (.head _) rfl
  have hg := @hget 5 6 0x3F _ rfl (by decide) (.tail _ (.head _)) rfl
  have hb := @hget 0 5 0x1F _ rfl (by decide) (.tail _ (.tail _ (.head _))) rfl
  omega

theorem word_rgb10a2 (p : List Byte) :
    BitField.word (UnormFormat.rgb10a2.fields (getPixelRGB10A2 p)) = packed32 p := by
  have hlt := packed32_lt p
  have hword : _ < 2 ^ 32 := word_lt (fields_fit .rgb10a2 (getPixelRGB10A2 p))
  have hget := @word_getBits .rgb10a2 (getPixelRGB10A2 p) (packed32 p)
  have hr := @hget 0 10 0x3FF _ rfl (by decide) (.head _) rfl
  have hg := @hget 10 10 0x3FF _ rfl (by decide) (.tail _ (.head _)) rfl
  have hb := @hget 20 10 0x3FF _ rfl (by decide) (.tail _ (.tail _ (.head _))) rfl
  have ha := @hget 30 2 0x3 _ rfl (by decide) (.tail _ (.tail _ (.tail _ (.head _)))) rfl
  omega

/-- **A pixel that is set to what it is** stays as it is, if the channels are got
in the order that they are set in. -/
theorem pixelSetFunction_get (format : UnormFormat) {p : List Byte}
    (h : p.length = format.pixelSize) :
    format.pixelSetFunction (format.order (format.pixelGetFunction p)) = p := by
  cases format with
  | r8 =>
    have hput := putRgba8_get p
    rwa [h] at hput
  | rg8 =>
    have hput := putRgba8_get p
    rwa [h] at hput
  | rgba8 =>
    have hput := putRgba8_get p
    rwa [h] at hput
  | r16 => exact putRgba16_get (show p.length = 2 * 1 from h)
  | rg16 => exact putRgba16_get (show p.length = 2 * 2 from h)
  | rgba16 => exact putRgba16_get (show p.length = 2 * 4 from h)
  | rgba4 =>
    show setPixelRGBA4 (getPixelRGBA4 p) = p
    rw [putPacked_rgba4, word_rgba4, putPacked16_get h]
  | rgb5a1 =>
    show setPixelRGB5A1 (getPixelRGB5A1 p) = p
    rw [putPacked_rgb5a1, word_rgb5a1, putPacked16_get h]
  | rgb565 =>
    show setPixelRGB565 (getPixelRGB565 p) = p
    rw [putPacked_rgb565, word_rgb565, putPacked16_get h]
  | rgb10a2 =>
    show setPixelRGB10A2 (getPixelRGB10A2 p) = p
    rw [putPacked_rgb10a2, word_rgb10a2, putPacked32_get h]

/-! ## Pixels of image data -/

open ImageData

section Pixels

variable {img : ImageData} {index : Nat} (hindex : index < img.width * img.height)

include hindex in
theorem pixel_length : (img.pixel index).length = img.format.pixelSize := by
  have hend := pixel_end_le hindex
  rw [pixel, length_take, length_drop]
  omega

theorem pixel_putPixel (c : Colorf) :
    (img.putPixel index hindex c).pixel index = img.format.pixelSetFunction c := by
  have hend := pixel_end_le hindex
  show ((overwrite img.data (index * img.format.pixelSize) (img.format.pixelSetFunction c)).drop
    (index * img.format.pixelSize)).take img.format.pixelSize = _
  have hstart : index * img.format.pixelSize ≤ img.data.length := by omega
  have hpiece := @overwrite_piece img.data (img.format.pixelSetFunction c) _ hstart
  rwa [pixelSetFunction_length] at hpiece

theorem pixel_putPixel_of_ne (c : Colorf) {other : Nat} (hne : other ≠ index) :
    (img.putPixel index hindex c).pixel other = img.pixel other := by
  have hend := pixel_end_le hindex
  have hstart : index * img.format.pixelSize ≤ img.data.length := by omega
  rw [pixel, pixel]
  show ((overwrite img.data (index * img.format.pixelSize) (img.format.pixelSetFunction c)).drop
    (other * img.format.pixelSize)).take img.format.pixelSize = _
  rcases Nat.lt_or_gt_of_ne hne with hlt | hgt
  · refine overwrite_piece_before hstart ?_
    rw [← Nat.succ_mul]
    exact Nat.mul_le_mul_right _ hlt
  · rw [overwrite_piece_behind hstart]
    rw [pixelSetFunction_length, ← Nat.succ_mul]
    exact Nat.mul_le_mul_right _ hgt

theorem putPixel_same {c : Colorf} (h : img.format.pixelSetFunction c = img.pixel index) :
    img.putPixel index hindex c = img := by
  have hdata : (img.putPixel index hindex c).data = img.data := by
    show overwrite img.data (index * img.format.pixelSize) (img.format.pixelSetFunction c) = _
    rw [h]
    exact overwrite_same _ _ _ (pixel_end_le hindex)
  cases img with
  | mk format width height data size_eq => exact ImageData.mk.injEq .. ▸ ⟨rfl, rfl, rfl, hdata⟩

end Pixels

/-- What setting and getting a pixel is for: it is set to what is got without
changing anything, and a color that is set is got as the nearest one that the
format has, with no other pixel changed. -/
structure RoundTrips (img : ImageData) (x y : Int) (c : Colorf) : Prop where
  same : ∃ d, img.getPixel x y = .ok d ∧ img.setPixel x y d = .ok img
  set : ∃ img' d, img.setPixel x y c = .ok img' ∧ img'.getPixel x y = .ok d ∧
    NearestColor img.format c d ∧
    ∀ index, index ≠ (img.pixelIndex x y).toNat → img'.pixel index = img.pixel index

/-- The green and the blue level of an RGBA16 pixel are the same. -/
def GrayLevels (p : List Byte) : Prop := rgba16 p 1 = rgba16 p 2

/-- A color with green and blue nearest to the same 16 bit level. -/
def GrayColor (c : Colorf) : Prop := quantize 65535 c.g = quantize 65535 c.b

instance (p : List Byte) : Decidable (GrayLevels p) := inferInstanceAs (Decidable (_ = _))

theorem order_of_ne {format : UnormFormat} (h : format ≠ .rgba16) (c : Colorf) :
    format.order c = c :=
  if_neg h

/-- A color that is set is got with the levels that are nearest to its channels. -/
def Faithful (format : UnormFormat) (c : Colorf) : Prop :=
  ∀ channel, format.store channel ((format.order c).get channel) =
    format.store channel (c.get channel)

theorem faithful_of_gray {format : UnormFormat} {c : Colorf}
    (h : format = .rgba16 → GrayColor c) : Faithful format c := by
  intro channel
  by_cases hformat : format = .rgba16
  · subst hformat
    have hgray : quantize 65535 c.g = quantize 65535 c.b := h rfl
    cases channel with
    | r => rfl
    | g =>
      show (quantize 65535 c.b : ℚ) / 65535 = quantize 65535 c.g / 65535
      rw [hgray]
    | b =>
      show (quantize 65535 c.g : ℚ) / 65535 = quantize 65535 c.b / 65535
      rw [hgray]
    | a => rfl
  · rw [order_of_ne hformat]

theorem nearest_of_gray {format : UnormFormat} {c : Colorf} (h : format = .rgba16 → GrayColor c) :
    NearestColor format c (format.pixelGetFunction (format.pixelSetFunction c)) := by
  intro channel
  rw [pixelGetFunction_set, faithful_of_gray h channel]
  exact store_nearest format channel _

theorem gray_of_nearest {c : Colorf}
    (h : NearestColor .rgba16 c (getPixelRGBA16 (setPixelRGBA16 c))) : GrayColor c := by
  have hgreen : (getPixelRGBA16 (setPixelRGBA16 c)).get .g = (quantize 65535 c.b : ℚ) / 65535 := by
    exact pixelGetFunction_set .rgba16 c .g
  have hblue : (getPixelRGBA16 (setPixelRGBA16 c)).get .b = (quantize 65535 c.g : ℚ) / 65535 := by
    exact pixelGetFunction_set .rgba16 c .b
  have hg : Nearest (levels 65535) c.g ((quantize 65535 c.b : ℚ) / 65535) := hgreen ▸ h .g
  have hb : Nearest (levels 65535) c.b ((quantize 65535 c.g : ℚ) / 65535) := hblue ▸ h .b
  exact quantize_eq_of_nearest (by decide) hg hb

theorem order_of_gray {format : UnormFormat} {p : List Byte}
    (h : format = .rgba16 → GrayLevels p) :
    format.order (format.pixelGetFunction p) = format.pixelGetFunction p := by
  by_cases hformat : format = .rgba16
  · subst hformat
    have hgray : rgba16 p 1 = rgba16 p 2 := h rfl
    show (⟨_, (rgba16 p 2 : ℚ) / 65535, (rgba16 p 1 : ℚ) / 65535, _⟩ : Colorf) =
      ⟨_, (rgba16 p 1 : ℚ) / 65535, (rgba16 p 2 : ℚ) / 65535, _⟩
    rw [hgray]
    rfl
  · exact order_of_ne hformat _

theorem gray_of_same {p : List Byte} (h : setPixelRGBA16 (getPixelRGBA16 p) = p) :
    GrayLevels p := by
  have hput : rgba16 (setPixelRGBA16 (getPixelRGBA16 p)) 1 =
      quantize 65535 ((rgba16 p 2 : ℚ) / 65535) :=
    rgba16_put (Nat.lt_add_left 2 Nat.one_lt_two)
  have hlt : rgba16 p 2 < 2 ^ 16 := isLt _
  have hlevel := @quantize_level ℚ _ _ _ _ (rgba16 p 2) 65535 (by omega) (by decide)
  rw [Nat.cast_ofNat] at hlevel
  rwa [h, hlevel] at hput

/-- When setting and getting an RGBA16 pixel does what it is for: green and blue
are exchanged on the way into the pixel, so they have to be the same there. -/
def Unmixed (img : ImageData) (x y : Int) (c : Colorf) : Prop :=
  img.format = .rgba16 →
    GrayLevels (img.pixel (img.pixelIndex x y).toNat) ∧ GrayColor c

section RoundTrips

variable {img : ImageData} {x y : Int} {c : Colorf}

theorem setPixel_ok (hinside : img.inside x y) (hint : img.pixelIndex x y < 2 ^ 31) (c : Colorf) :
    img.setPixel x y c =
      .ok (img.putPixel (img.pixelIndex x y).toNat (pixelIndex_lt hinside).2 c) := by
  rw [setPixel, dif_pos hinside, if_neg (not_le.mpr hint)]

theorem getPixel_ok (hinside : img.inside x y) (hint : img.pixelIndex x y < 2 ^ 31) :
    img.getPixel x y =
      .ok (img.format.pixelGetFunction (img.pixel (img.pixelIndex x y).toNat)) := by
  rw [getPixel, if_pos hinside, if_neg (not_le.mpr hint)]

theorem pixelIndex_lt_of_ok (hinside : img.inside x y) {d : Colorf}
    (h : img.getPixel x y = .ok d) : img.pixelIndex x y < 2 ^ 31 := by
  by_contra hover
  rw [getPixel, if_pos hinside, if_pos (not_lt.mp hover)] at h
  cases h

theorem roundTrips_of_unmixed (hinside : img.inside x y) (hint : img.pixelIndex x y < 2 ^ 31)
    (h : Unmixed img x y c) : RoundTrips img x y c where
  same := by
    have hindex := (pixelIndex_lt hinside).2
    refine ⟨_, getPixel_ok hinside hint, ?_⟩
    rw [setPixel_ok hinside hint, putPixel_same]
    have horder := order_of_gray (fun hformat => (h hformat).1)
    rw [← horder]
    exact pixelSetFunction_get _ (pixel_length hindex)
  set := by
    have hindex := (pixelIndex_lt hinside).2
    refine ⟨_, _, setPixel_ok hinside hint c, getPixel_ok hinside hint, ?_, ?_⟩
    · have hnear := nearest_of_gray (fun hformat => (h hformat).2)
      rw [← pixel_putPixel hindex] at hnear
      exact hnear
    · intro index hne
      exact pixel_putPixel_of_ne hindex c hne

theorem unmixed_of_roundTrips (hinside : img.inside x y) (h : RoundTrips img x y c) :
    img.pixelIndex x y < 2 ^ 31 ∧ Unmixed img x y c := by
  obtain ⟨d, hget, hset⟩ := h.same
  obtain ⟨img', e, hset', hget', hnear, -⟩ := h.set
  have hint := pixelIndex_lt_of_ok hinside hget
  have hindex := (pixelIndex_lt hinside).2
  rw [getPixel_ok hinside hint, Except.ok.injEq] at hget
  subst hget
  rw [setPixel_ok hinside hint, Except.ok.injEq] at hset hset'
  subst hset'
  refine ⟨hint, fun hformat => ⟨?_, ?_⟩⟩
  · have hpixel := pixel_putPixel hindex
      (img.format.pixelGetFunction (img.pixel (img.pixelIndex x y).toNat))
    rw [hset, hformat] at hpixel
    exact gray_of_same hpixel.symm
  · have hgot : (img.putPixel _ hindex c).getPixel x y =
        .ok (img.format.pixelGetFunction
          ((img.putPixel _ hindex c).pixel (img.pixelIndex x y).toNat)) :=
      getPixel_ok hinside hint
    rw [hgot, pixel_putPixel hindex c, Except.ok.injEq] at hget'
    rw [← hget', hformat] at hnear
    exact gray_of_nearest hnear

end RoundTrips

/-- One pixel of RGBA16, all 0. -/
def blackPixel : ImageData :=
  ⟨.rgba16, 1, 1, List.replicate 8 0, rfl⟩

end Lhatove.Image
