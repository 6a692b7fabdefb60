import Lhatove.Graphics.Std430

/-!
# Layouts of buffers

The constructor of `love::graphics::Buffer`, for every usage and format.

- Members are laid out one after the other, each at its alignment in a buffer that
  shaders can write to; a second usage must not need another layout.
- A size is rounded up to whole elements. It and the product of the array's length and
  stride are numbers of 64 bits.
-/

namespace Lhatove.Graphics

/-- `BufferUsageFlags` -/
structure BufferUsage where
  vertex : Bool
  index : Bool
  texel : Bool
  storage : Bool
  indirect : Bool
  deriving DecidableEq

/-- Used for more than shader storage. -/
def BufferUsage.packed (usage : BufferUsage) : Bool :=
  usage.index || usage.vertex || usage.texel

/-- `BufferDataUsage` -/
inductive Buffer.DataUsage
  | stream
  | dynamic
  | static
  | readback
  deriving DecidableEq

/-- What the constructor asks of `Graphics::getCapabilities`. -/
structure BufferCapabilities where
  texelBuffer : Bool
  glsl4 : Bool
  indirectDraw : Bool
  texelBufferSize : Nat

/-- `Buffer::Settings` -/
structure BufferSettings where
  usageFlags : BufferUsage
  dataUsage : Buffer.DataUsage

/-- `Buffer::DataDeclaration` -/
structure BufferDeclaration where
  name : String
  format : DataFormat
  arrayLength : Int
  bindingLocation : Int
  deriving DecidableEq

/-- `Buffer::DataMember` -/
structure Buffer.DataMember where
  decl : BufferDeclaration
  offset : Nat
  size : Nat
  deriving DecidableEq

/-- `Buffer`, what its constructor computes. -/
structure Buffer where
  dataMembers : List Buffer.DataMember
  arrayLength : Nat
  arrayStride : Nat
  size : Nat
  legacyVertexBindings : Bool
  deriving DecidableEq

/-- `VertexAttributes::MAX` -/
def VertexAttributes.max : Nat := 30

/-- A number of 64 bits as `%d` prints it. -/
def printInt (n : Nat) : String := toString (BitVec.ofNat 32 n).toInt

/-! ## Checks of a declaration -/

namespace BufferDeclaration

/-- Without its location, for the checks of a storage buffer. -/
def declared (decl : BufferDeclaration) : DataDeclaration :=
  ⟨decl.name, decl.format, decl.arrayLength.toNat⟩

def checkIndex (count : Nat) (decl : BufferDeclaration) : Except String Unit :=
  if decl.format ≠ .uint16 ∧ decl.format ≠ .uint32 then
    .error "Index buffers only support uint16 and uint32 data types."
  else if 1 < count then .error "Index buffers only support a single value per element."
  else if 0 < decl.arrayLength then .error "Arrays are not supported in index buffers."
  else .ok ()

/-- A binding location that is given up for the name of a member. -/
def legacyBinding (decl : BufferDeclaration) : Bool :=
  decl.bindingLocation == -1 && decl.name != ""

def checkVertex (decl : BufferDeclaration) : Except String Unit :=
  let info := decl.format.info
  if 0 < decl.arrayLength then .error "Arrays are not supported in vertex buffers."
  else if info.isMatrix then .error "Matrix types are not supported in vertex buffers."
  else if info.baseType = .bool then .error "Bool types are not supported in vertex buffers."
  else if (decl.bindingLocation < 0 ∨ VertexAttributes.max ≤ decl.bindingLocation) ∧
      ¬decl.legacyBinding then
    .error ("Vertex buffer attributes must have a valid binding location value within [0, " ++
      toString VertexAttributes.max ++ ").")
  else .ok ()

def checkTexel (first : DataFormat) (decl : BufferDeclaration) : Except String Unit :=
  let info := decl.format.info
  if decl.format ≠ first then
    .error "All values in a texel buffer must have the same format."
  else if 0 < decl.arrayLength then .error "Arrays are not supported in texel buffers."
  else if info.isMatrix then .error "Matrix types are not supported in texel buffers."
  else if info.baseType = .bool then .error "Bool types are not supported in texel buffers."
  else if info.components = 3 then
    .error "3-component formats are not supported in texel buffers."
  else if info.baseType = .snorm then
    .error "Signed normalized formats are not supported in texel buffers."
  else .ok ()

def checkIndirect (count : Nat) (decl : BufferDeclaration) : Except String Unit :=
  let info := decl.format.info
  if info.isMatrix ∨ info.components ≠ 1 ∨ (info.baseType ≠ .uint ∧ info.baseType ≠ .int) then
    .error "Indirect argument buffers must use single-component int or uint types."
  else if 5 < count then
    .error "Indirect argument buffers only support up to 5 values per array element."
  else .ok ()

end BufferDeclaration

/-- A check that is made for some usage only. -/
def whenUsed (used : Bool) (check : Except String Unit) : Except String Unit :=
  if used then check else .ok ()

/-! ## The layout -/

/-- Where a member starts: in a storage buffer at its alignment. -/
def memberOffset (storage : Bool) (decl : BufferDeclaration) (offset : Nat) : Nat :=
  if storage then alignUp offset decl.format.alignment else offset

/-- What is checked of a storage buffer's member, with its position. -/
def checkStorage (usage : BufferUsage) (decl : BufferDeclaration) (offset : Nat) :
    Except String Unit := do
  decl.declared.check
  let memberoffset := alignUp offset decl.format.alignment
  if memberoffset ≠ offset ∧ usage.packed then
    .error ("Cannot create Buffer:\nInternal alignment of member '" ++ decl.name ++
      "' is preventing Buffer from being created as both a shader storage buffer and other " ++
      "buffer types\nMember byte offset needed for shader storage buffer: " ++
      printInt memberoffset ++ "\nMember byte offset needed for other buffer types: " ++
      printInt offset)
  else .ok ()

/-- The loop over the format: the members, the offset and the alignment of the structure. -/
def membersLoop (usage : BufferUsage) (first : DataFormat) (count : Nat) :
    List BufferDeclaration → Nat → Nat → Except String (List Buffer.DataMember × Nat × Nat)
  | [], offset, structurealignment => .ok ([], offset, structurealignment)
  | decl :: format, offset, structurealignment => do
    whenUsed usage.index (decl.checkIndex count)
    whenUsed usage.vertex decl.checkVertex
    whenUsed usage.texel (decl.checkTexel first)
    whenUsed usage.storage (checkStorage usage decl offset)
    whenUsed usage.indirect (decl.checkIndirect count)
    let memberoffset := memberOffset usage.storage decl offset
    let membersize := decl.format.info.size
    let (members, rest) ← membersLoop usage first count format (memberoffset + membersize)
      (if usage.storage then max structurealignment decl.format.alignment else structurealignment)
    return (⟨decl, memberoffset, membersize⟩ :: members, rest)

/-- What is checked before the loop. -/
def checkSettings (caps : BufferCapabilities) (settings : BufferSettings) :
    Except String Unit :=
  let usage := settings.usageFlags
  if usage.texel ∧ ¬caps.texelBuffer then
    .error "Texel buffers are not supported on this system."
  else if usage.storage ∧ ¬caps.glsl4 then
    .error ("Shader Storage buffers are not supported on this system " ++
      "(GLSL 4 support is necessary.)")
  else if usage.storage ∧ settings.dataUsage = .stream then
    .error ("Buffers created with 'stream' data usage cannot be used as a shader storage " ++
      "buffer.")
  else if usage.indirect ∧ ¬caps.indirectDraw then
    .error "Indirect argument buffers are not supported on this system."
  else if settings.dataUsage = .readback ∧
      (usage.index ∨ usage.vertex ∨ usage.texel ∨ usage.storage ∨ usage.indirect) then
    .error ("Buffers created with 'readback' data usage cannot be index, vertex, texel, " ++
      "shaderstorage, or indirectarguments buffer types.")
  else .ok ()

/-- What is checked of the stride. -/
def checkStride (usage : BufferUsage) (offset stride : Nat) : Except String Unit :=
  if usage.storage ∧ usage.packed ∧ stride ≠ offset then
    .error ("Cannot create Buffer:\nBuffer used as a shader storage buffer would have a " ++
      "different number of bytes per array element (" ++ printInt stride ++
      ") than when used as other buffer types (" ++ printInt offset ++ ")")
  else if usage.storage ∧ maxStride < stride then
    .error ("Shader storage buffers cannot have more than " ++ toString maxStride ++
      " bytes within each array element.")
  else .ok ()

/-- The size and the array's length: either is found from the other. -/
def wholeElements (stride : Nat) (size arraylength : BitVec 64) : Nat × Nat :=
  if size ≠ 0 then
    let remainder := size.toNat % stride
    let size := if 0 < remainder then (size.toNat + (stride - remainder)) % 2 ^ 64 else size.toNat
    (size, size / stride)
  else (arraylength.toNat * stride % 2 ^ 64, arraylength.toNat)

/-- The constructor of `Buffer`. -/
def newBuffer (caps : BufferCapabilities) (settings : BufferSettings)
    (format : List BufferDeclaration) (size arraylength : BitVec 64) : Except String Buffer := do
  let usage := settings.usageFlags
  if size = 0 ∧ arraylength = 0 then .error "Size or array length must be specified."
  else
    match format with
    | [] => .error "Data format must contain values."
    | first :: _ => do
      checkSettings caps settings
      let (dataMembers, offset, structurealignment) ←
        membersLoop usage first.format format.length format 0 1
      let stride := alignUp offset structurealignment
      checkStride usage offset stride
      let (size, arraylength) := wholeElements stride size arraylength
      if usage.texel ∧ caps.texelBufferSize < arraylength * dataMembers.length % 2 ^ 64 then
        .error ("Cannot create texel buffer: total number of values in the buffer (" ++
          printInt dataMembers.length ++ " * " ++ printInt arraylength ++
          ") is too large for this system (maximum " ++ toString caps.texelBufferSize ++ ").")
      else
        return ⟨dataMembers, arraylength, stride, size,
          usage.vertex && format.any BufferDeclaration.legacyBinding⟩

/-! ## What a layout is for -/

/-- The base alignment of a vector in std430: three components are aligned as four are. -/
def std430VectorAlign (components componentSize : Nat) : Nat :=
  match components with
  | 1 => componentSize
  | 2 => 2 * componentSize
  | _ => 4 * componentSize

/-- The base alignment of a format in std430: that of a matrix is its column's. -/
def DataFormat.std430Align (format : DataFormat) : Nat :=
  let info := format.info
  std430VectorAlign (if info.isMatrix then info.matrixRows else info.components)
    info.componentSize

/-- What a member is aligned to: only in a storage buffer is it more than a byte. -/
def memberAlignment (usage : BufferUsage) (decl : BufferDeclaration) : Nat :=
  if usage.storage then decl.format.std430Align else 1

def largestAlignment (usage : BufferUsage) (format : List BufferDeclaration) : Nat :=
  (format.map (memberAlignment usage)).foldr max 1

/-- The end of the members that are put one after the other from an offset on. -/
def membersEnd (usage : BufferUsage) : List BufferDeclaration → Nat → Nat
  | [], offset => offset
  | decl :: format, offset =>
    membersEnd usage format (alignUp offset (memberAlignment usage decl) + decl.format.info.size)

/-- The bytes of an array's element. -/
def elementSize (usage : BufferUsage) (format : List BufferDeclaration) : Nat :=
  alignUp (membersEnd usage format 0) (largestAlignment usage format)

/-- The bytes that a declaration's values take. -/
def BufferDeclaration.extent (decl : BufferDeclaration) : Nat :=
  decl.format.info.size * max 1 decl.arrayLength.toNat

/-- A layout is sound for a usage and a format. -/
structure Buffer.Sound (usage : BufferUsage) (format : List BufferDeclaration) (buffer : Buffer) :
    Prop where
  declared : buffer.dataMembers.map Buffer.DataMember.decl = format
  sizes : ∀ m ∈ buffer.dataMembers, m.size = m.decl.extent
  apart : buffer.dataMembers.Pairwise fun m m' => m.offset + m.size ≤ m'.offset
  aligned : ∀ m ∈ buffer.dataMembers, memberAlignment usage m.decl ∣ m.offset
  strideAligned : largestAlignment usage format ∣ buffer.arrayStride
  strideCovers : ∀ m ∈ buffer.dataMembers, m.offset + m.size ≤ buffer.arrayStride
  whole : buffer.size = buffer.arrayLength * buffer.arrayStride

/-- The whole elements that are asked for fit 64 bits, or what is left of them is nothing. -/
def ElementsFit (element : Nat) (size arraylength : BitVec 64) : Prop :=
  if size ≠ 0 then alignUp size.toNat element < 2 ^ 64 ∨ 2 ^ 64 ∣ alignUp size.toNat element
  else arraylength.toNat * element < 2 ^ 64

/-! ## Alignments -/

theorem alignment_eq (format : DataFormat) : format.alignment = format.std430Align := by
  cases format <;> rfl

theorem info_size_pos (format : DataFormat) : 0 < format.info.size := by
  cases format <;> decide

theorem memberAlignment_pos (usage : BufferUsage) (decl : BufferDeclaration) :
    0 < memberAlignment usage decl := by
  rw [memberAlignment]
  split_ifs
  · cases decl.format <;> decide
  · exact Nat.one_pos

theorem largestAlignment_pos (usage : BufferUsage) (format : List BufferDeclaration) :
    0 < largestAlignment usage format := by
  induction format with
  | nil => exact Nat.one_pos
  | cons decl format _ => exact (memberAlignment_pos usage decl).trans_le (le_max_left _ _)

theorem memberOffset_eq (usage : BufferUsage) (decl : BufferDeclaration) (offset : Nat) :
    memberOffset usage.storage decl offset = alignUp offset (memberAlignment usage decl) := by
  rw [memberOffset, memberAlignment]
  split_ifs
  · rw [alignment_eq]
  · rw [alignUp_one]

theorem structurealignment_eq (usage : BufferUsage) (decl : BufferDeclaration) {align : Nat}
    (h : 0 < align) :
    (if usage.storage then max align decl.format.alignment else align) =
      max align (memberAlignment usage decl) := by
  rw [memberAlignment]
  split_ifs
  · rw [alignment_eq]
  · exact (max_eq_left h).symm

/-! ## The loop -/

theorem whenUsed_eq_ok {used : Bool} {check : Except String Unit}
    (h : whenUsed used check = .ok ()) (hused : used = true) : check = .ok () := by
  rw [whenUsed, if_pos hused] at h
  exact h

/-- What is laid out between two offsets. -/
structure LaidOut (usage : BufferUsage) (members : List Buffer.DataMember) (start finish : Nat) :
    Prop where
  sizes : ∀ m ∈ members, m.size = m.decl.format.info.size
  apart : members.Pairwise fun m m' => m.offset + m.size ≤ m'.offset
  aligned : ∀ m ∈ members, memberAlignment usage m.decl ∣ m.offset
  after : ∀ m ∈ members, start ≤ m.offset
  before : ∀ m ∈ members, m.offset + m.size ≤ finish
  le : start ≤ finish

variable {usage : BufferUsage} {first : DataFormat} {count : Nat}

/-- **A step of the loop**: what it has checked, and where it goes on. -/
theorem membersLoop_cons {decl : BufferDeclaration} {format : List BufferDeclaration}
    {offset align finish align' : Nat} {members : List Buffer.DataMember} (halign : 0 < align)
    (h : membersLoop usage first count (decl :: format) offset align =
      .ok (members, finish, align')) :
    ∃ members', members = ⟨decl, alignUp offset (memberAlignment usage decl),
        decl.format.info.size⟩ :: members' ∧
      (usage.vertex = true → decl.checkVertex = .ok ()) ∧
      (usage.storage = true → checkStorage usage decl offset = .ok ()) ∧
      membersLoop usage first count format
        (alignUp offset (memberAlignment usage decl) + decl.format.info.size)
        (max align (memberAlignment usage decl)) = .ok (members', finish, align') := by
  rw [membersLoop, memberOffset_eq, structurealignment_eq usage decl halign] at h
  cases hindex : whenUsed usage.index (decl.checkIndex count) with
  | error e => simp [hindex, bind, Except.bind] at h
  | ok =>
  cases hvertex : whenUsed usage.vertex decl.checkVertex with
  | error e => simp [hindex, hvertex, bind, Except.bind] at h
  | ok =>
  cases htexel : whenUsed usage.texel (decl.checkTexel first) with
  | error e => simp [hindex, hvertex, htexel, bind, Except.bind] at h
  | ok =>
  cases hstorage : whenUsed usage.storage (checkStorage usage decl offset) with
  | error e => simp [hindex, hvertex, htexel, hstorage, bind, Except.bind] at h
  | ok =>
  cases hindirect : whenUsed usage.indirect (decl.checkIndirect count) with
  | error e => simp [hindex, hvertex, htexel, hstorage, hindirect, bind, Except.bind] at h
  | ok =>
    simp only [hindex, hvertex, htexel, hstorage, hindirect, bind, Except.bind] at h
    cases hrest : membersLoop usage first count format
        (alignUp offset (memberAlignment usage decl) + decl.format.info.size)
        (max align (memberAlignment usage decl)) with
    | error e => simp [hrest] at h
    | ok result =>
      obtain ⟨members', finish', align''⟩ := result
      simp only [hrest, pure, Except.pure, Except.ok.injEq, Prod.mk.injEq] at h
      obtain ⟨rfl, rfl, rfl⟩ := h
      exact ⟨members', rfl, whenUsed_eq_ok hvertex, whenUsed_eq_ok hstorage, rfl⟩

theorem arrayLength_of_checks {decl : BufferDeclaration} {offset : Nat}
    (hused : usage.vertex = true ∨ usage.storage = true)
    (hvertex : usage.vertex = true → decl.checkVertex = .ok ())
    (hstorage : usage.storage = true → checkStorage usage decl offset = .ok ()) :
    decl.arrayLength.toNat = 0 := by
  rcases hused with hused | hused
  · have h := hvertex hused
    rw [BufferDeclaration.checkVertex] at h
    by_contra hne
    rw [if_pos (by omega)] at h
    cases h
  · have h := hstorage hused
    rw [checkStorage] at h
    cases hcheck : decl.declared.check with
    | error e => simp [hcheck, bind, Except.bind] at h
    | ok => exact DataDeclaration.arrayLength_of_check hcheck

/-- **The loop** lays the members out in the order of the format. -/
theorem membersLoop_laidOut {format : List BufferDeclaration} :
    ∀ {offset align finish align' : Nat} {members : List Buffer.DataMember}, 0 < align →
      membersLoop usage first count format offset align = .ok (members, finish, align') →
      members.map Buffer.DataMember.decl = format ∧ LaidOut usage members offset finish ∧
        finish = membersEnd usage format offset ∧
        align' = max align (largestAlignment usage format) ∧
        (usage.vertex = true ∨ usage.storage = true →
          ∀ m ∈ members, m.decl.arrayLength.toNat = 0) := by
  induction format with
  | nil =>
    intro offset align finish align' members halign h
    cases h
    refine ⟨rfl, ?_, rfl, (max_eq_left halign).symm, fun _ m hm => absurd hm List.not_mem_nil⟩
    constructor
    · exact fun m hm => absurd hm List.not_mem_nil
    · exact .nil
    · exact fun m hm => absurd hm List.not_mem_nil
    · exact fun m hm => absurd hm List.not_mem_nil
    · exact fun m hm => absurd hm List.not_mem_nil
    · exact le_rfl
  | cons decl format ih =>
    intro offset align finish align' members halign h
    obtain ⟨members', rfl, hvertex, hstorage, hrest⟩ := membersLoop_cons halign h
    obtain ⟨hdecls, hlaid, rfl, rfl, harrays⟩ := ih (halign.trans_le (le_max_left _ _)) hrest
    have hstart : offset ≤ alignUp offset (memberAlignment usage decl) :=
      le_alignUp (memberAlignment_pos usage decl)
    refine ⟨by rw [List.map_cons, hdecls], ?_, rfl, ?_, ?_⟩
    · constructor
      · exact List.forall_mem_cons.mpr ⟨rfl, hlaid.sizes⟩
      · exact List.pairwise_cons.mpr ⟨hlaid.after, hlaid.apart⟩
      · exact List.forall_mem_cons.mpr ⟨dvd_alignUp _ _, hlaid.aligned⟩
      · refine List.forall_mem_cons.mpr ⟨hstart, fun m hm => ?_⟩
        have := hlaid.after m hm
        omega
      · exact List.forall_mem_cons.mpr ⟨hlaid.le, hlaid.before⟩
      · have := hlaid.le
        omega
    · rw [max_assoc]
      rfl
    · intro hused
      exact List.forall_mem_cons.mpr ⟨arrayLength_of_checks hused hvertex hstorage, harrays hused⟩

/-! ## The size -/

theorem alignUp_eq_add {n a : Nat} (ha : 0 < a) :
    alignUp n a = if 0 < n % a then n + (a - n % a) else n := by
  have hlt := Nat.mod_lt n ha
  have hsplit := Nat.div_add_mod' n a
  split_ifs with hrest
  · rw [alignUp_eq ha]
    refine ⟨⟨n / a + 1, ?_⟩, by omega, by omega⟩
    rw [Nat.mul_add, Nat.mul_comm a]
    omega
  · exact alignUp_of_dvd ha (Nat.dvd_of_mod_eq_zero (by omega))

/-- **The size is whole** where it fits. -/
theorem wholeElements_iff {stride : Nat} (hstride : 0 < stride) (size arraylength : BitVec 64) :
    (wholeElements stride size arraylength).1 = (wholeElements stride size arraylength).2 * stride ↔
      ElementsFit stride size arraylength := by
  have hsize := size.isLt
  rw [wholeElements, ElementsFit]
  split_ifs with hzero
  · have hround := @alignUp_eq_add size.toNat stride hstride
    have hdvd := dvd_alignUp size.toNat stride
    dsimp only
    by_cases hrest : 0 < size.toNat % stride
    · have hmod := Nat.mod_le size.toNat stride
      rw [if_pos hrest] at hround ⊢
      rw [← hround]
      generalize alignUp size.toNat stride = rounded at *
      by_cases hfits : rounded < 2 ^ 64
      · rw [Nat.mod_eq_of_lt hfits, Nat.div_mul_cancel hdvd]
        exact ⟨fun _ => .inl hfits, fun _ => rfl⟩
      · -- what is left is less than an element
        have hleft : rounded % 2 ^ 64 < stride := by
          by_cases hwide : stride < 2 ^ 64
          · omega
          · exact (Nat.mod_lt _ (by norm_num)).trans_le (not_lt.mp hwide)
        rw [Nat.div_eq_of_lt hleft, zero_mul, ← Nat.dvd_iff_mod_eq_zero]
        exact ⟨.inr, fun h => h.resolve_left hfits⟩
    · rw [if_neg hrest] at hround ⊢
      have hwhole : stride ∣ size.toNat := Nat.dvd_of_mod_eq_zero (by omega)
      rw [Nat.div_mul_cancel hwhole, hround]
      exact ⟨fun _ => .inl hsize, fun _ => rfl⟩
  · dsimp only
    constructor
    · intro h
      rw [← h]
      exact Nat.mod_lt _ (by norm_num)
    · intro h
      exact Nat.mod_eq_of_lt h

/-! ## The constructor -/

variable {caps : BufferCapabilities} {settings : BufferSettings} {format : List BufferDeclaration}
  {size arraylength : BitVec 64} {buffer : Buffer}

theorem newBuffer_eq_ok (h : newBuffer caps settings format size arraylength = .ok buffer) :
    format ≠ [] ∧ ∃ first offset align,
      membersLoop settings.usageFlags first format.length format 0 1 =
        .ok (buffer.dataMembers, offset, align) ∧
      buffer.arrayStride = alignUp offset align ∧
      checkStride settings.usageFlags offset buffer.arrayStride = .ok () ∧
      (buffer.size, buffer.arrayLength) = wholeElements buffer.arrayStride size arraylength := by
  unfold newBuffer at h
  split_ifs at h
  cases format with
  | nil => cases h
  | cons decl format =>
  simp only [bind, Except.bind] at h
  cases hsettings : checkSettings caps settings with
  | error e => rw [hsettings] at h; cases h
  | ok =>
  rw [hsettings] at h
  cases hloop : membersLoop settings.usageFlags decl.format (decl :: format).length
      (decl :: format) 0 1 with
  | error e => rw [hloop] at h; cases h
  | ok result =>
  obtain ⟨members, offset, align⟩ := result
  rw [hloop] at h
  dsimp only at h
  split at h
  · cases h
  next hstride =>
    split_ifs at h
    cases h
    exact ⟨List.cons_ne_nil _ _, decl.format, offset, align, hloop, rfl, hstride, rfl⟩

theorem arrayStride_eq (h : newBuffer caps settings format size arraylength = .ok buffer) :
    buffer.arrayStride = elementSize settings.usageFlags format := by
  obtain ⟨-, first, offset, align, hloop, hstride, -⟩ := newBuffer_eq_ok h
  obtain ⟨-, -, rfl, rfl, -⟩ := membersLoop_laidOut Nat.one_pos hloop
  rw [hstride, elementSize, max_eq_right (largestAlignment_pos _ _)]

theorem arrayStride_pos (h : newBuffer caps settings format size arraylength = .ok buffer) :
    0 < buffer.arrayStride := by
  obtain ⟨hne, first, offset, align, hloop, hstride, -⟩ := newBuffer_eq_ok h
  obtain ⟨hdecls, hlaid, -, rfl, -⟩ := membersLoop_laidOut Nat.one_pos hloop
  cases hmembers : buffer.dataMembers with
  | nil =>
    rw [hmembers] at hdecls
    exact absurd hdecls.symm hne
  | cons m members =>
    have hm : m ∈ buffer.dataMembers := hmembers ▸ List.mem_cons_self
    have hpos := info_size_pos m.decl.format
    have hbefore := hlaid.before m hm
    rw [hlaid.sizes m hm] at hbefore
    rw [hstride]
    exact (by omega : 0 < offset).trans_le (le_alignUp (Nat.one_pos.trans_le (le_max_left _ _)))

/-- **A layout is sound** exactly where the whole elements fit 64 bits. -/
theorem newBuffer_sound_iff (h : newBuffer caps settings format size arraylength = .ok buffer)
    (hused : settings.usageFlags.vertex = true ∨ settings.usageFlags.storage = true) :
    buffer.Sound settings.usageFlags format ↔
      ElementsFit (elementSize settings.usageFlags format) size arraylength := by
  have hstride := arrayStride_eq h
  have hpos := arrayStride_pos h
  obtain ⟨-, first, offset, align, hloop, halign, -, hwhole⟩ := newBuffer_eq_ok h
  obtain ⟨hdecls, hlaid, -, rfl, harrays⟩ := membersLoop_laidOut Nat.one_pos hloop
  have hsize : buffer.size = _ := congrArg Prod.fst hwhole
  have hlength : buffer.arrayLength = _ := congrArg Prod.snd hwhole
  rw [← hstride, ← wholeElements_iff hpos, ← hsize, ← hlength]
  constructor
  · intro hsound
    exact hsound.whole
  · intro hproduct
    have hcovers : offset ≤ buffer.arrayStride :=
      halign ▸ le_alignUp (Nat.one_pos.trans_le (le_max_left _ _))
    constructor
    · exact hdecls
    · intro m hm
      rw [hlaid.sizes m hm, BufferDeclaration.extent, harrays hused m hm]
      exact (Nat.mul_one _).symm
    · exact hlaid.apart
    · exact hlaid.aligned
    · rw [hstride]
      exact dvd_alignUp _ _
    · exact fun m hm => (hlaid.before m hm).trans hcovers
    · exact hproduct

/-- A vertex of three floats. -/
def threeFloats : BufferDeclaration := ⟨"VertexPosition", .floatVec3, 0, 0⟩

/-- A buffer for vertices, on a system without the rest. -/
def vertexSettings : BufferSettings := ⟨⟨true, false, false, false, false⟩, .static⟩

theorem newBuffer_sound_iff_vertices :
    (Buffer.Sound vertexSettings.usageFlags [threeFloats]
      ⟨[⟨threeFloats, 0, 12⟩], 9, 12, 108, false⟩) ↔
      ElementsFit (elementSize vertexSettings.usageFlags [threeFloats]) 100 0 :=
  newBuffer_sound_iff (show newBuffer ⟨false, false, false, 0⟩ vertexSettings [threeFloats] 100 0 =
    .ok ⟨[⟨threeFloats, 0, 12⟩], 9, 12, 108, false⟩ from rfl) (.inl rfl)

/-- Rounding up the greatest size leaves 8 bytes, and no element of 12 is among them. -/
theorem newBuffer_wraps :
    newBuffer ⟨false, false, false, 0⟩ vertexSettings [threeFloats] 0xFFFFFFFFFFFFFFFF 0 =
        .ok ⟨[⟨threeFloats, 0, 12⟩], 0, 12, 8, false⟩ ∧
      ¬Buffer.Sound vertexSettings.usageFlags [threeFloats]
        ⟨[⟨threeFloats, 0, 12⟩], 0, 12, 8, false⟩ :=
  ⟨rfl, fun h => absurd h.whole (by decide)⟩

/-! ## Storage buffers alone -/

end Lhatove.Graphics
