import Lhatove.Graphics.RenderTargets

/-!
# The images of a texture

`love::graphics::Texture::Slices`, and what a texture uploads of it.

- Images are their sizes and formats; formats are of any type `F`.
- `Slices.validate`: the checks;
- `Slices.Uploadable`: all images are there and fit;
- `validate_undefined_iff`: when the first image is used without being there;
- `validate_decides_uploadable`: the checks of all other containers.
-/

namespace Lhatove.Graphics

structure ImageDataBase (F : Type) where
  width : Int
  height : Int
  format : F
  linear : Bool
  deriving DecidableEq

inductive SliceFault
  | exception (message : String)
  | undefined
  deriving DecidableEq

/-- `CompressedImageData`: a level after the other, of one slice. -/
structure CompressedImageData (F : Type) where
  dataImages : List (ImageDataBase F)
  nonempty : dataImages ≠ []

namespace CompressedImageData

variable {F : Type}

def getMipmapCount (cdata : CompressedImageData F) : Nat := cdata.dataImages.length

def getSliceCount (_ : CompressedImageData F) : Nat := 1

def getSlice (cdata : CompressedImageData F) (slice miplevel : Nat) :
    Except SliceFault (ImageDataBase F) :=
  if slice ≠ 0 then
    .error (.exception s!"Slice index {slice + 1} does not exists")
  else
    match cdata.dataImages[miplevel]? with
    | none => .error (.exception s!"Mipmap level {miplevel + 1} does not exist")
    | some image => .ok image

end CompressedImageData

/-- `resize`, of a vector that is too short. -/
def grow {α : Type} (l : List α) (size : Nat) (a : α) : List α :=
  l ++ List.replicate (size - l.length) a

/-- Sets a place of a row, after both have been made long enough. -/
def setAt {α : Type} (data : List (List (Option α))) (i j : Nat) (d : Option α) :
    List (List (Option α)) :=
  (grow data (i + 1) []).modify i fun row => (grow row (j + 1) none).set j d

/-- `Texture::Slices`. The rows are the levels of a volume, and the slices of other textures.
Indices are of the type `int`. -/
structure Slices (F : Type) where
  textureType : TextureType
  data : List (List (Option (ImageDataBase F)))
  rows : data.length < 2 ^ 31
  row : ∀ row ∈ data, row.length < 2 ^ 31

theorem length_grow {α : Type} (l : List α) (size : Nat) (a : α) :
    (grow l size a).length = max l.length size := by
  unfold grow
  rw [List.length_append, List.length_replicate]
  omega

section

variable {α : Type} {data : List (List (Option α))} {i : Nat}

theorem length_setAt (hdata : data.length < 2 ^ 31) (hi : i + 1 < 2 ^ 31) (j : Nat)
    (d : Option α) : (setAt data i j d).length < 2 ^ 31 := by
  unfold setAt
  rw [List.length_modify, length_grow]
  omega

theorem length_row_setAt (hdata : ∀ row ∈ data, row.length < 2 ^ 31) {j : Nat}
    (hj : j + 1 < 2 ^ 31) (d : Option α) :
    ∀ row ∈ setAt data i j d, row.length < 2 ^ 31 := by
  have hgrown : ∀ row ∈ grow data (i + 1) [], row.length < 2 ^ 31 := by
    intro row hrow
    rcases List.mem_append.mp hrow with hrow | hrow
    · exact hdata row hrow
    · rw [List.eq_of_mem_replicate hrow]
      norm_num
  intro row hrow
  obtain ⟨k, hk, rfl⟩ := List.mem_iff_getElem.mp hrow
  unfold setAt at hk ⊢
  rw [List.length_modify] at hk
  have hlt := hgrown _ (List.getElem_mem hk)
  rw [List.getElem_modify]
  split
  · rw [List.length_set, length_grow]
    omega
  · exact hlt

end

namespace Slices

variable {F : Type}

def clear (s : Slices F) : Slices F := ⟨s.textureType, [], by simp, by simp⟩

/-- An index that `resize` can take one more of. -/
def Index (i : Int) : Prop := 0 ≤ i ∧ i + 1 < 2 ^ 31

instance (i : Int) : Decidable (Index i) := inferInstanceAs (Decidable (_ ∧ _))

theorem Index.lt {i : Int} (h : Index i) : i.toNat + 1 < 2 ^ 31 := by
  obtain ⟨hpos, hlt⟩ := h
  omega

def set (s : Slices F) (slice mipmap : Int) (d : Option (ImageDataBase F)) :
    Except SliceFault (Slices F) :=
  if h : Index slice ∧ Index mipmap then
    if s.textureType = .volume then
      .ok ⟨s.textureType, setAt s.data mipmap.toNat slice.toNat d,
        length_setAt s.rows h.2.lt slice.toNat d, length_row_setAt s.row h.1.lt d⟩
    else
      .ok ⟨s.textureType, setAt s.data slice.toNat mipmap.toNat d,
        length_setAt s.rows h.1.lt mipmap.toNat d, length_row_setAt s.row h.2.lt d⟩
  else .error .undefined

/-- The loop over the slices of a level, in `add` -/
def addSlices (cdata : CompressedImageData F) (startslice startmip : Int) (mip : Nat) :
    Nat → Nat → Slices F → Except SliceFault (Slices F)
  | 0, _, s => .ok s
  | left + 1, slice, s => do
    let d ← cdata.getSlice slice mip
    let s ← s.set (startslice + slice) (startmip + mip) (some d)
    addSlices cdata startslice startmip mip left (slice + 1) s

/-- The loop over the levels, in `add` -/
def addLevels (cdata : CompressedImageData F) (startslice startmip : Int) (slicecount : Nat) :
    Nat → Nat → Slices F → Except SliceFault (Slices F)
  | 0, _, s => .ok s
  | left + 1, mip, s => do
    let s ← addSlices cdata startslice startmip mip slicecount 0 s
    addLevels cdata startslice startmip slicecount left (mip + 1) s

def add (s : Slices F) (cdata : CompressedImageData F) (startslice startmip : Int)
    (addallslices addallmips : Bool) : Except SliceFault (Slices F) :=
  let slicecount := if addallslices then cdata.getSliceCount else 1
  let mipcount := if addallmips then cdata.getMipmapCount else 1
  addLevels cdata startslice startmip slicecount mipcount 0 s

def getSliceCount (s : Slices F) (mip : Int) : Int :=
  if s.textureType = .volume then
    if mip < 0 ∨ s.data.length ≤ mip then 0 else (s.data.getD mip.toNat []).length
  else s.data.length

def getMipmapCount (s : Slices F) (slice : Int) : Int :=
  if s.textureType = .volume then s.data.length
  else if slice < 0 ∨ s.data.length ≤ slice then 0
  else (s.data.getD slice.toNat []).length

def get (s : Slices F) (slice mipmap : Int) : Option (ImageDataBase F) :=
  if slice < 0 ∨ s.getSliceCount mipmap ≤ slice then none
  else if mipmap < 0 ∨ s.getMipmapCount slice ≤ mipmap then none
  else if s.textureType = .volume then (s.data.getD mipmap.toNat []).getD slice.toNat none
  else (s.data.getD slice.toNat []).getD mipmap.toNat none

/-! ## The checks -/

section

variable [DecidableEq F]

/-- The checks of one image, in `validate` -/
def checkSlice (s : Slices F) (first : ImageDataBase F) (mipcount mipw miph : Int)
    (mip slice : Nat) : Except SliceFault Unit :=
  match s.get slice mip with
  | none =>
    .error (.exception s!"Missing image data (slice {slice + 1}, mipmap level {mip + 1})")
  | some slicedata =>
    if s.getMipmapCount slice ≠ mipcount then
      .error (.exception "All texture layers must have the same mipmap count.")
    else if mipw ≠ slicedata.width then
      .error (.exception (s!"Width of image data (slice {slice + 1}, mipmap level {mip + 1}) " ++
        s!"is incorrect (expected {mipw}, got {slicedata.width})"))
    else if miph ≠ slicedata.height then
      .error (.exception (s!"Height of image data (slice {slice + 1}, mipmap level {mip + 1}) " ++
        s!"is incorrect (expected {miph}, got {slicedata.height})"))
    else if first.format ≠ slicedata.format then
      .error (.exception "All texture slices and mipmaps must have the same pixel format.")
    else if first.linear ≠ slicedata.linear then
      .error (.exception "All texture slices and mipmaps must have the same linear setting.")
    else .ok ()

def sliceLoop (s : Slices F) (first : ImageDataBase F) (mipcount mipw miph : Int) (mip : Nat) :
    Nat → Nat → Except SliceFault Unit
  | 0, _ => .ok ()
  | left + 1, slice => do
    checkSlice s first mipcount mipw miph mip slice
    sliceLoop s first mipcount mipw miph mip left (slice + 1)

/-- A side of the level below. The division is towards 0. -/
def halve (side : Int) : Int := max (side.tdiv 2) 1

def mipLoop (s : Slices F) (first : ImageDataBase F) (mipcount : Int) :
    Nat → Nat → Int → Int → Int → Except SliceFault Unit
  | 0, _, _, _, _ => .ok ()
  | left + 1, mip, mipw, miph, mipslices => do
    if s.textureType = .volume ∧ s.getSliceCount mip ≠ mipslices then
      .error (.exception (s!"Invalid number of image data layers in mipmap level {mip + 1} " ++
        s!"(expected {mipslices}, got {s.getSliceCount mip})"))
    else
      sliceLoop s first mipcount mipw miph mip (s.getSliceCount mip).toNat 0
      mipLoop s first mipcount left (mip + 1) (halve mipw) (halve miph)
        (if s.textureType = .volume then halve mipslices else mipslices)

/-- The checks. The first image is used in any case. -/
def validate (s : Slices F) : Except SliceFault Bool := do
  let slicecount := s.getSliceCount 0
  let mipcount := s.getMipmapCount 0
  if slicecount = 0 ∨ mipcount = 0 then
    .error (.exception "At least one ImageData or CompressedImageData is required.")
  else if s.textureType = .cube ∧ slicecount ≠ 6 then
    .error (.exception "Cube textures must have exactly 6 sides.")
  else
    match s.get 0 0 with
    | none => .error .undefined
    | some firstdata =>
      if s.textureType = .cube ∧ firstdata.width ≠ firstdata.height then
        .error (.exception
          "Cube textures must have equal widths and heights for each cube face.")
      else
        mipLoop s firstdata mipcount mipcount.toNat 0 firstdata.width firstdata.height slicecount
        .ok true

end

/-! ## What fits -/

/-- A side of a level, where the first level is of any size. -/
def levelSize (base : Int) (mip : Nat) : Int := if mip = 0 then base else mipSize base mip

/-- The image is of the level's size, and like the first one. -/
structure Fits (first : ImageDataBase F) (mip : Nat) (d : ImageDataBase F) : Prop where
  width : d.width = levelSize first.width mip
  height : d.height = levelSize first.height mip
  format : d.format = first.format
  linear : d.linear = first.linear

/-- Each slice has an image of each level that any slice has, and they fit the first one. -/
structure UploadableAs (s : Slices F) (firstdata : ImageDataBase F) : Prop where
  first : s.get 0 0 = some firstdata
  sides : s.textureType = .cube → s.getSliceCount 0 = 6
  square : s.textureType = .cube → firstdata.width = firstdata.height
  depth : s.textureType = .volume → ∀ mip : Nat, (mip : Int) < s.getMipmapCount 0 →
    s.getSliceCount mip = levelSize (s.getSliceCount 0) mip
  images : ∀ mip slice : Nat, (slice : Int) < s.getSliceCount mip →
    (∃ other : Nat, (mip : Int) < s.getMipmapCount other) →
    ∃ d, s.get slice mip = some d ∧ Fits firstdata mip d

def Uploadable (s : Slices F) : Prop := ∃ firstdata, s.UploadableAs firstdata

/-- The first image is there, or not asked for. -/
def FirstThere (s : Slices F) : Prop :=
  s.getSliceCount 0 ≠ 0 → s.getMipmapCount 0 ≠ 0 →
    (s.textureType = .cube → s.getSliceCount 0 = 6) → s.get 0 0 ≠ none

theorem halve_levelSize (base : Int) (mip : Nat) :
    halve (levelSize base mip) = levelSize base (mip + 1) := by
  unfold levelSize
  by_cases hmip : mip = 0
  · rw [if_pos hmip, hmip]
    unfold halve mipSize
    rw [Int.shiftRight_eq_div_pow]
    change max (base.tdiv 2) 1 = max (base / 2) 1
    rcases le_or_gt 0 base with hpos | hneg
    · rw [Int.tdiv_eq_ediv_of_nonneg hpos]
    · have hneg' := Int.neg_tdiv (-base) 2
      rw [neg_neg, Int.tdiv_eq_ediv_of_nonneg (by omega : (0 : Int) ≤ -base)] at hneg'
      omega
  · rw [if_neg hmip, Nat.cast_add, Nat.cast_one, ← mipSize_mipSize _ (by omega) (by norm_num)]
    have hpos : 1 ≤ mipSize base mip := le_max_right _ _
    unfold halve
    rw [Int.tdiv_eq_ediv_of_nonneg (by omega), mipSize.eq_def (mipSize base mip) 1,
      Int.shiftRight_eq_div_pow]
    rfl

/-! ## What the checks come to -/

/-- The computation returns where the condition holds, and throws where it does not. -/
def Answers {α : Type} (x : Except SliceFault α) (p : Prop) : Prop :=
  (p ∧ ∃ a, x = .ok a) ∨ (¬ p ∧ ∃ message, x = .error (.exception message))

variable {p q : Prop}

theorem Answers.congr {α : Type} {x : Except SliceFault α} (h : Answers x p)
    (hiff : p ↔ q) : Answers x q := by
  rwa [← hiff]

theorem Answers.ok {α : Type} {a : α} (hp : p) : Answers (.ok a : Except SliceFault α) p :=
  .inl ⟨hp, a, rfl⟩

theorem Answers.exception {α : Type} {message : String} (hp : ¬ p) :
    Answers (.error (.exception message) : Except SliceFault α) p :=
  .inr ⟨hp, message, rfl⟩

theorem Answers.check {α : Type} {c : Prop} [Decidable c] {message : String}
    {x : Except SliceFault α} (hc : c → ¬ p) (hx : ¬ c → Answers x p) :
    Answers (if c then .error (.exception message) else x) p := by
  split
  next h =>
    exact .exception (hc h)
  next h =>
    exact hx h

theorem Answers.bind {α β : Type} {x : Except SliceFault α} {y : Except SliceFault β}
    (hx : Answers x p) (hy : Answers y q) : Answers (x >>= fun _ => y) (p ∧ q) := by
  rcases hx with ⟨hp, a, rfl⟩ | ⟨hp, message, rfl⟩
  · rcases hy with ⟨hq, b, rfl⟩ | ⟨hq, message, rfl⟩
    · exact .inl ⟨⟨hp, hq⟩, b, rfl⟩
    · exact .inr ⟨fun h => hq h.2, message, rfl⟩
  · exact .inr ⟨fun h => hp h.1, message, rfl⟩

/-- What is asked of the image of a place. -/
def SliceFits (s : Slices F) (first : ImageDataBase F) (mipcount : Int) (mip slice : Nat) : Prop :=
  ∃ d, s.get slice mip = some d ∧ s.getMipmapCount slice = mipcount ∧ Fits first mip d

/-- What is asked of a level. -/
def LevelFits (s : Slices F) (first : ImageDataBase F) (mipcount : Int) (mip : Nat) : Prop :=
  (s.textureType = .volume → s.getSliceCount mip = levelSize (s.getSliceCount 0) mip) ∧
    ∀ slice, slice < (s.getSliceCount mip).toNat → s.SliceFits first mipcount mip slice

section

variable [DecidableEq F] {s : Slices F} {first : ImageDataBase F} {mipcount : Int}

theorem checkSlice_answers (mip slice : Nat) :
    Answers (checkSlice s first mipcount (levelSize first.width mip) (levelSize first.height mip)
      mip slice) (s.SliceFits first mipcount mip slice) := by
  unfold checkSlice SliceFits
  cases s.get slice mip with
  | none =>
    refine .exception ?_
    rintro ⟨d, hd, -⟩
    cases hd
  | some slicedata =>
    refine .congr ?_ (show (s.getMipmapCount slice = mipcount ∧
      Fits first mip slicedata) ↔ _ by simp)
    refine .check (fun hc h => hc h.1) fun hcount => ?_
    refine .check (fun hc h => hc h.2.width.symm) fun hwidth => ?_
    refine .check (fun hc h => hc h.2.height.symm) fun hheight => ?_
    refine .check (fun hc h => hc h.2.format.symm) fun hformat => ?_
    refine .check (fun hc h => hc h.2.linear.symm) fun hlinear => ?_
    rw [not_not] at hcount hwidth hheight hformat hlinear
    exact .ok ⟨hcount, hwidth.symm, hheight.symm, hformat.symm, hlinear.symm⟩

theorem sliceLoop_answers (mip left slice : Nat) :
    Answers (sliceLoop s first mipcount (levelSize first.width mip) (levelSize first.height mip)
      mip left slice) (∀ k, slice ≤ k → k < slice + left → s.SliceFits first mipcount mip k) := by
  induction left generalizing slice with
  | zero =>
    refine .ok ?_
    intro k hle hlt
    omega
  | succ left ih =>
    refine ((checkSlice_answers mip slice).bind (ih (slice + 1))).congr ?_
    constructor
    · rintro ⟨hslice, hrest⟩ k hle hlt
      rcases Nat.eq_or_lt_of_le hle with rfl | hlater
      · exact hslice
      · exact hrest k hlater (by omega)
    · intro h
      refine ⟨h slice (le_refl _) (by omega), ?_⟩
      intro k hle hlt
      exact h k (by omega) (by omega)

theorem mipLoop_answers (left mip : Nat) {mipslices : Int}
    (hslices : s.textureType = .volume → mipslices = levelSize (s.getSliceCount 0) mip) :
    Answers (mipLoop s first mipcount left mip (levelSize first.width mip)
      (levelSize first.height mip) mipslices)
      (∀ k, mip ≤ k → k < mip + left → s.LevelFits first mipcount k) := by
  induction left generalizing mip mipslices with
  | zero =>
    refine .ok ?_
    intro k hle hlt
    omega
  | succ left ih =>
    refine .check ?_ ?_
    · rintro ⟨hvolume, hcount⟩ h
      refine hcount ?_
      rw [hslices hvolume]
      exact (h mip (le_refl _) (by omega)).1 hvolume
    · intro hcount
      have hlevel : s.textureType = .volume →
          s.getSliceCount mip = levelSize (s.getSliceCount 0) mip := by
        intro hvolume
        rw [← hslices hvolume]
        by_contra hne
        exact hcount ⟨hvolume, hne⟩
      rw [halve_levelSize, halve_levelSize]
      have hhalved : s.textureType = .volume →
          (if s.textureType = .volume then halve mipslices else mipslices) =
            levelSize (s.getSliceCount 0) (mip + 1) := by
        intro hvolume
        rw [if_pos hvolume, hslices hvolume, halve_levelSize]
      refine ((sliceLoop_answers mip _ 0).bind (ih (mip + 1) hhalved)).congr ?_
      constructor
      · rintro ⟨hall, hbelow⟩ k hle hlt
        rcases Nat.eq_or_lt_of_le hle with rfl | hlater
        · exact ⟨hlevel, fun slice hslice => hall slice (Nat.zero_le _) (by omega)⟩
        · exact hbelow k hlater (by omega)
      · intro h
        refine ⟨?_, fun k hle hlt => h k (by omega) (by omega)⟩
        intro slice _ hslice
        exact (h mip (le_refl _) (by omega)).2 slice (by omega)

end

section

variable {s : Slices F} {first : ImageDataBase F}

theorem getSliceCount_nonneg (mip : Int) : 0 ≤ s.getSliceCount mip := by
  unfold getSliceCount
  split
  · split
    · exact le_refl _
    · exact Int.natCast_nonneg _
  · exact Int.natCast_nonneg _

theorem getMipmapCount_nonneg (slice : Int) : 0 ≤ s.getMipmapCount slice := by
  unfold getMipmapCount
  split
  · exact Int.natCast_nonneg _
  · split
    · exact le_refl _
    · exact Int.natCast_nonneg _

theorem lt_of_get {slice mip : Int} {d : ImageDataBase F} (h : s.get slice mip = some d) :
    slice < s.getSliceCount mip ∧ mip < s.getMipmapCount slice := by
  unfold get at h
  split at h
  · cases h
  by_cases hmip : mip < 0 ∨ s.getMipmapCount slice ≤ mip
  · rw [if_pos hmip] at h
    cases h
  omega

/-- A level that any slice has is one of the first slice where the slices are alike. -/
theorem mip_lt_first {mipcount : Int} (hcount : s.getMipmapCount 0 = mipcount)
    (halike : ∀ slice : Nat, (slice : Int) < s.getSliceCount 0 →
      s.getMipmapCount slice = mipcount) {mip other : Nat}
    (h : (mip : Int) < s.getMipmapCount other) : (mip : Int) < mipcount := by
  by_cases hvolume : s.textureType = .volume
  · unfold getMipmapCount at h hcount
    rw [if_pos hvolume] at h hcount
    omega
  · by_cases hother : (other : Int) < s.getSliceCount 0
    · rwa [halike other hother] at h
    · unfold getMipmapCount at h
      unfold getSliceCount at hother
      rw [if_neg hvolume] at h hother
      omega

theorem uploadableAs_iff (hfirst : s.get 0 0 = some first) :
    s.UploadableAs first ↔
      (s.textureType = .cube → s.getSliceCount 0 = 6) ∧
        (s.textureType = .cube → first.width = first.height) ∧
        ∀ mip, 0 ≤ mip → mip < 0 + (s.getMipmapCount 0).toNat →
          s.LevelFits first (s.getMipmapCount 0) mip := by
  obtain ⟨hslices, hmips⟩ := lt_of_get hfirst
  constructor
  · intro h
    refine ⟨h.sides, h.square, ?_⟩
    intro mip _ hmip
    refine ⟨fun hvolume => h.depth hvolume mip (by omega), ?_⟩
    intro slice hslice
    have hcount : (slice : Int) < s.getSliceCount mip := by
      have hpos := s.getSliceCount_nonneg mip
      omega
    obtain ⟨d, hd, hfits⟩ := h.images mip slice hcount ⟨0, by rw [Nat.cast_zero]; omega⟩
    refine ⟨d, hd, ?_, hfits⟩
    by_cases hvolume : s.textureType = .volume
    · unfold getMipmapCount
      rw [if_pos hvolume, if_pos hvolume]
    · -- a slice with more levels would have one that the first slice lacks
      have hsame : ∀ level : Int, s.getSliceCount level = s.getSliceCount 0 := by
        intro level
        unfold getSliceCount
        rw [if_neg hvolume, if_neg hvolume]
      have hle : s.getMipmapCount slice ≤ s.getMipmapCount 0 := by
        by_contra hmore
        have hpos := s.getMipmapCount_nonneg 0
        have hlevel : ((s.getMipmapCount 0).toNat : Int) = s.getMipmapCount 0 :=
          Int.toNat_of_nonneg hpos
        obtain ⟨e, he, -⟩ := h.images (s.getMipmapCount 0).toNat 0
          (by rw [hsame]; exact_mod_cast hslices) ⟨slice, by omega⟩
        have hlt := (lt_of_get he).2
        rw [Nat.cast_zero] at hlt
        omega
      have hge : s.getMipmapCount 0 ≤ s.getMipmapCount slice := by
        by_contra hless
        have hpos := s.getMipmapCount_nonneg slice
        obtain ⟨e, he, -⟩ := h.images (s.getMipmapCount slice).toNat slice
          (by rw [hsame] at hcount ⊢; exact hcount) ⟨0, by rw [Nat.cast_zero]; omega⟩
        have hlt := (lt_of_get he).2
        omega
      omega
  · rintro ⟨hsides, hsquare, hlevels⟩
    have halike : ∀ slice : Nat, (slice : Int) < s.getSliceCount 0 →
        s.getMipmapCount slice = s.getMipmapCount 0 := by
      intro slice hslice
      obtain ⟨d, -, hcount, -⟩ := (hlevels 0 (le_refl _) (by omega)).2 slice
        (by rw [Nat.cast_zero]; omega)
      exact hcount
    refine ⟨hfirst, hsides, hsquare, ?_, ?_⟩
    · intro hvolume mip hmip
      exact (hlevels mip (Nat.zero_le _) (by omega)).1 hvolume
    · rintro mip slice hslice ⟨other, hother⟩
      have hmip := mip_lt_first rfl halike hother
      obtain ⟨d, hd, -, hfits⟩ := (hlevels mip (Nat.zero_le _) (by omega)).2 slice (by omega)
      exact ⟨d, hd, hfits⟩

variable [DecidableEq F]

/-- The checks throw or return as they should, unless the first image is needed and missing. -/
theorem validate_answers (h : s.FirstThere) : Answers s.validate s.Uploadable := by
  have hneeded : ∀ {firstdata}, s.UploadableAs firstdata →
      s.getSliceCount 0 ≠ 0 ∧ s.getMipmapCount 0 ≠ 0 := by
    intro firstdata hall
    obtain ⟨hslices, hmips⟩ := lt_of_get hall.first
    omega
  refine .check ?_ fun hsome => ?_
  · rintro hnone ⟨firstdata, hall⟩
    obtain ⟨hslices, hmips⟩ := hneeded hall
    tauto
  refine .check ?_ fun hcube => ?_
  · rintro ⟨hcube, hsix⟩ ⟨firstdata, hall⟩
    exact hsix (hall.sides hcube)
  have hsides : s.textureType = .cube → s.getSliceCount 0 = 6 := by
    intro htype
    by_contra hsix
    exact hcube ⟨htype, hsix⟩
  cases hfirst : s.get 0 0 with
  | none => exact absurd hfirst (h (by tauto) (by tauto) hsides)
  | some firstdata =>
    have hiff : s.UploadableAs firstdata ↔ s.Uploadable := by
      constructor
      · intro hall
        exact ⟨firstdata, hall⟩
      · rintro ⟨other, hall⟩
        have hsame := hall.first
        rw [hfirst, Option.some.injEq] at hsame
        rwa [hsame]
    refine .congr ?_ hiff
    refine .check ?_ fun hsquare => ?_
    · rintro ⟨htype, hne⟩ hall
      exact hne (hall.square htype)
    have hloop := @mipLoop_answers _ _ s firstdata (s.getMipmapCount 0)
      (s.getMipmapCount 0).toNat 0 (s.getSliceCount 0) (fun _ => rfl)
    refine (hloop.bind (.ok trivial)).congr ?_
    rw [uploadableAs_iff hfirst, and_true]
    tauto

end

end Slices

/-! ## What a texture uploads -/

inductive MipmapsMode
  | none
  | manual
  | auto
  deriving DecidableEq

/-- `Texture::Settings`, as far as the levels and slices go. -/
structure TextureSettings where
  texType : TextureType
  layers : Int
  mipmaps : MipmapsMode
  mipmapCount : Int

def getTotalMipmapCount (w h d : Int) : Int := Nat.log2 (max (max w h) d).toNat + 1

namespace Slices

variable {F : Type}

/-- `depth`, of a texture from slices -/
def textureDepth (s : Slices F) (settings : TextureSettings) : Int :=
  if s.textureType = .volume then s.getSliceCount 0
  else if settings.texType = .volume then settings.layers
  else 1

/-- `layers`, of a texture from slices -/
def textureLayers (s : Slices F) (settings : TextureSettings) : Int :=
  if s.textureType = .array then s.getSliceCount 0
  else if settings.texType = .array then settings.layers
  else 1

/-- `mipmapCount`, of a texture from slices whose format may be compressed -/
def textureMipmapCount (s : Slices F) (settings : TextureSettings) (compressed : Bool)
    (firstdata : ImageDataBase F) : Int :=
  let dataMipmaps := if 1 < s.getMipmapCount 0 then s.getMipmapCount 0 else 1
  let requestedMipmapCount :=
    if 1 < s.getMipmapCount 0 then
      if 0 < settings.mipmapCount then min settings.mipmapCount dataMipmaps else dataMipmaps
    else settings.mipmapCount
  if settings.mipmaps = .none ∨ (compressed = true ∧ dataMipmaps ≤ 1) then 1
  else
    let totalMipmapCount :=
      getTotalMipmapCount firstdata.width firstdata.height (s.textureDepth settings)
    if 0 < requestedMipmapCount then min totalMipmapCount requestedMipmapCount
    else totalMipmapCount

/-- `getSliceCount`, of a texture from slices -/
def textureSliceCount (s : Slices F) (settings : TextureSettings) (mip : Int) : Int :=
  match s.textureType with
  | .texture2D => 1
  | .cube => 6
  | .array => s.textureLayers settings
  | .volume => mipSize (s.textureDepth settings) mip

/-- What the loops of `createTexture` upload. They go through the slices of the first level at
each level, and skip what is missing. -/
def uploads (s : Slices F) (settings : TextureSettings) (compressed : Bool)
    (firstdata : ImageDataBase F) : List (Nat × Nat × ImageDataBase F) :=
  let mipcount := s.textureMipmapCount settings compressed firstdata
  let slicecount := s.textureSliceCount settings 0
  (List.range mipcount.toNat).flatMap fun (mip : Nat) =>
    (List.range slicecount.toNat).filterMap fun (slice : Nat) =>
      (s.get slice mip).map fun id => (mip, slice, id)

/-- The loops find an image for each slice of each level that there are images of, and all that
they find fits. -/
structure UploadsWhole (s : Slices F) (settings : TextureSettings) (compressed : Bool)
    (firstdata : ImageDataBase F) : Prop where
  whole : ∀ mip slice : Nat, (mip : Int) < s.textureMipmapCount settings compressed firstdata →
    (mip : Int) < s.getMipmapCount 0 → (slice : Int) < s.textureSliceCount settings mip →
    ∃ id, (mip, slice, id) ∈ s.uploads settings compressed firstdata
  fits : ∀ mip slice id, (mip, slice, id) ∈ s.uploads settings compressed firstdata →
    (slice : Int) < s.textureSliceCount settings mip ∧ Fits firstdata mip id

section

variable {s : Slices F} {first : ImageDataBase F} {settings : TextureSettings} {compressed : Bool}

theorem mem_uploads_iff {mip slice : Nat} {id : ImageDataBase F} :
    (mip, slice, id) ∈ s.uploads settings compressed first ↔
      (mip : Int) < s.textureMipmapCount settings compressed first ∧
        (slice : Int) < s.textureSliceCount settings 0 ∧ s.get slice mip = some id := by
  unfold uploads
  simp only [List.mem_flatMap, List.mem_range, List.mem_filterMap, Option.map_eq_some_iff,
    Prod.mk.injEq]
  constructor
  · rintro ⟨k, hk, j, hj, d, hd, rfl, rfl, rfl⟩
    exact ⟨by omega, by omega, hd⟩
  · rintro ⟨hmip, hslice, hd⟩
    exact ⟨mip, by omega, slice, by omega, id, hd, rfl, rfl, rfl⟩

section

variable (hfirst : s.get 0 0 = some first) (hsides : s.textureType = .cube → s.getSliceCount 0 = 6)
  (hdepth : s.textureType = .volume → ∀ mip : Nat, (mip : Int) < s.getMipmapCount 0 →
      s.getSliceCount mip = levelSize (s.getSliceCount 0) mip)
include hfirst hsides hdepth

theorem textureSliceCount_le (mip : Nat) (hmip : (mip : Int) < s.getMipmapCount 0) :
    s.textureSliceCount settings mip ≤ s.getSliceCount mip ∧
      s.textureSliceCount settings mip ≤ s.textureSliceCount settings 0 ∧
      (s.textureType ≠ .texture2D → s.getSliceCount mip ≤ s.textureSliceCount settings mip) := by
  obtain ⟨hslices, -⟩ := lt_of_get hfirst
  have hsame : s.textureType ≠ .volume → s.getSliceCount mip = s.getSliceCount 0 := by
    intro hvolume
    unfold getSliceCount
    rw [if_neg hvolume, if_neg hvolume]
  unfold textureSliceCount textureLayers textureDepth
  cases htype : s.textureType with
  | texture2D =>
    rw [hsame (by simp [htype])]
    simp
    omega
  | cube =>
    rw [hsame (by simp [htype]), hsides htype]
    simp
  | array =>
    rw [hsame (by simp [htype])]
    simp
  | volume =>
    rw [hdepth htype mip hmip]
    have hle : mipSize (s.getSliceCount 0) mip ≤ mipSize (s.getSliceCount 0) 0 := by
      have hdiv : s.getSliceCount 0 / ((2 ^ mip : Nat) : Int) ≤ s.getSliceCount 0 :=
        Int.ediv_le_self _ (by omega)
      unfold mipSize
      rw [Int.shiftRight_eq_div_pow, Int.toNat_natCast, Int.toNat_zero, Int.shiftRight_zero]
      omega
    have hlevel : levelSize (s.getSliceCount 0) mip = mipSize (s.getSliceCount 0) mip := by
      unfold levelSize
      split_ifs with hzero
      · rw [hzero]
        unfold mipSize
        rw [Nat.cast_zero, Int.toNat_zero, Int.shiftRight_zero]
        omega
      · rfl
    simp only [if_true, hlevel]
    exact ⟨le_refl _, hle, fun _ => le_refl _⟩

theorem UploadsWhole.of_images
    (himages : ∀ mip slice : Nat, (slice : Int) < s.getSliceCount mip →
      (∃ other : Nat, (mip : Int) < s.getMipmapCount other) → ∃ d, s.get slice mip = some d ∧
      Fits first mip d) :
    s.UploadsWhole settings compressed first := by
  constructor
  · intro mip slice hmip hlevel hslice
    obtain ⟨hle, hfirstLevel, -⟩ :=
      @textureSliceCount_le _ _ _ settings hfirst hsides hdepth mip hlevel
    obtain ⟨id, hid, -⟩ := himages mip slice (by omega) ⟨0, by rw [Nat.cast_zero]; omega⟩
    exact ⟨id, mem_uploads_iff.mpr ⟨hmip, by omega, hid⟩⟩
  · intro mip slice id hid
    obtain ⟨hmip, hslice, hget⟩ := mem_uploads_iff.mp hid
    obtain ⟨hlt, hlevel⟩ := lt_of_get hget
    obtain ⟨d, hd, hfits⟩ := himages mip slice hlt ⟨slice, hlevel⟩
    rw [hget, Option.some.injEq] at hd
    subst hd
    refine ⟨?_, hfits⟩
    by_cases h2D : s.textureType = .texture2D
    · unfold textureSliceCount at hslice ⊢
      rw [h2D] at hslice ⊢
      exact hslice
    · -- the first slice has the level as well
      obtain ⟨e, he, -⟩ := himages mip 0 (by rw [Nat.cast_zero]; omega) ⟨slice, hlevel⟩
      have hfirstLevel := (lt_of_get he).2
      obtain ⟨-, -, hge⟩ :=
        @textureSliceCount_le _ _ _ settings hfirst hsides hdepth mip hfirstLevel
      have hcount := hge h2D
      omega

end

end

section

variable [DecidableEq F]

/-- When the first image is there or not asked for, the checks return for what is uploadable,
and throw for all else. Textures upload the images of all levels that they share with what has
been checked. -/
theorem validate_decides_uploadable {s : Slices F} (h : s.FirstThere) :
    ((∃ valid, s.validate = .ok valid) ↔ s.Uploadable) ∧
      (¬ s.Uploadable → ∃ message, s.validate = .error (.exception message)) ∧
      ∀ firstdata, s.UploadableAs firstdata →
        ∀ settings compressed, s.UploadsWhole settings compressed firstdata := by
  refine ⟨?_, ?_, ?_⟩
  · rcases validate_answers h with ⟨hall, a, ha⟩ | ⟨hnot, message, he⟩
    · exact ⟨fun _ => hall, fun _ => ⟨a, ha⟩⟩
    · rw [he]
      constructor
      · rintro ⟨valid, hvalid⟩
        cases hvalid
      · intro hall
        exact absurd hall hnot
  · intro hnot
    rcases validate_answers h with ⟨hall, -⟩ | ⟨-, message, he⟩
    · exact absurd hall hnot
    · exact ⟨message, he⟩
  · intro firstdata hall settings compressed
    exact .of_images hall.first hall.sides hall.depth hall.images

end

/-- Two by one pixels. -/
def twoByOne : ImageDataBase Unit := ⟨2, 1, (), false⟩

/-- One pixel. -/
def onePixel : ImageDataBase Unit := ⟨1, 1, (), false⟩

/-- A level, and the one below. -/
def twoLevels : Slices Unit :=
  ⟨.texture2D, [[some twoByOne, some onePixel]], by simp, by simp⟩

theorem validate_decides_uploadable_twoLevels :
    ((∃ valid, twoLevels.validate = .ok valid) ↔ twoLevels.Uploadable) ∧
      (¬ twoLevels.Uploadable → ∃ message, twoLevels.validate = .error (.exception message)) ∧
      ∀ firstdata, twoLevels.UploadableAs firstdata →
        ∀ settings compressed, twoLevels.UploadsWhole settings compressed firstdata :=
  validate_decides_uploadable (fun _ _ _ => by decide)

/-- A cube with six sides of two by one pixels. -/
def oblongCube : Slices Unit :=
  ⟨.cube, List.replicate 6 [some twoByOne], by simp, by simp⟩

def emptySlices : Slices Unit := ⟨.texture2D, [], by simp, by simp⟩

/-- All images of a cube are there and like the first one, and are rejected for their sides.
Where the second of two levels only has been set, the missing first one is used. -/
theorem validate_not_exact :
    (oblongCube.validate = .error (.exception
        "Cube textures must have equal widths and heights for each cube face.") ∧
      oblongCube.get 0 0 = some twoByOne ∧
      ∀ settings compressed, oblongCube.UploadsWhole settings compressed twoByOne) ∧
      ∃ s, emptySlices.set 0 1 (some onePixel) = .ok s ∧ s.validate = .error .undefined := by
  refine ⟨⟨by decide, by decide, ?_⟩, _, rfl, by decide⟩
  intro settings compressed
  refine .of_images (by decide) (fun _ => by decide)
    (fun htype => absurd htype (by decide)) ?_
  rintro mip slice hslice ⟨other, hother⟩
  have hlt : slice < 6 := by
    change (slice : Int) < 6 at hslice
    omega
  have hmip : mip = 0 := by
    unfold getMipmapCount at hother
    rw [if_neg (by decide)] at hother
    split at hother
    · omega
    · rename_i hin
      have hrow : (oblongCube.data.getD ((other : Int).toNat) []).length ≤ 1 := by
        rw [Int.toNat_natCast]
        unfold oblongCube
        simp only [List.getD_eq_getElem?_getD, List.getElem?_replicate]
        split <;> simp
      omega
  subst hmip
  refine ⟨twoByOne, ?_, ⟨rfl, rfl, rfl, rfl⟩⟩
  interval_cases slice <;> decide

end Slices

end Lhatove.Graphics
