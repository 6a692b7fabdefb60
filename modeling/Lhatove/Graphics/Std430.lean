import Lhatove.Graphics.BufferFormats

/-!
# Storage formats and std430

The rules of std430 for a storage block, over the tree of its types, and when the layout
of the flattened format is theirs.

- `walk_events`: std430 is also a walk along the leaves of a type, with an alignment
  wherever a structure begins or ends (`Boundary`).
- `bufferLayout_pack`: a buffer's layout is a walk along the leaves alone.
- `Seamless`: along the leaves alone, each leaf lands where std430 has it.
-/

namespace Lhatove.Graphics

open GlslType List

/-! ## The rules -/

/-- The alignment of a vector of 4-byte components. -/
def vectorAlign (components : Nat) : Nat := if components = 3 then 16 else 4 * components

/-- An alignment and a size. -/
structure Extent where
  align : Nat
  size : Nat
  deriving DecidableEq

/-- A vector, or a matrix as the array of its columns, or of its rows. -/
def LeafType.extent : LeafType → Extent
  | .vector _ components => ⟨vectorAlign components, 4 * components⟩
  | .matrix _ columns rows rowMajor =>
    let (count, components) := if rowMajor then (rows, columns) else (columns, rows)
    ⟨vectorAlign components, count * alignUp (4 * components) (vectorAlign components)⟩

/-- An array of a type: each element is padded to the alignment. -/
def Extent.array (extent : Extent) (arraySize : Nat) : Nat :=
  if arraySize = 0 then extent.size else arraySize * alignUp extent.size extent.align

mutual

/-- The base alignment of a type, and its size; that of a structure is padded. -/
def GlslType.extent : GlslType → Extent
  | .leaf type => type.extent
  | .struct fields => ⟨fields.align, alignUp (fields.finish 0) fields.align⟩

/-- The largest base alignment of the fields. -/
def GlslFields.align : GlslFields → Nat
  | .nil => 1
  | .cons _ _ type fields => max type.extent.align fields.align

/-- The end of the last field, if the first can start from `pos` on. -/
def GlslFields.finish (pos : Nat) : GlslFields → Nat
  | .nil => pos
  | .cons _ arraySize type fields =>
    fields.finish (alignUp pos type.extent.align + type.extent.array arraySize)

end

mutual

/-- The offsets of the leaves of a type that is at `base`. -/
def GlslType.offsets (base arraySize : Nat) : GlslType → List Nat
  | .leaf _ => [base]
  | .struct fields => (List.range (max arraySize 1)).flatMap fun i =>
    fields.offsets (base + i * alignUp (fields.finish 0) fields.align) 0

/-- The offsets of the leaves of fields in a structure at `base`, of which the first can
start from `pos` on. -/
def GlslFields.offsets (base pos : Nat) : GlslFields → List Nat
  | .nil => []
  | .cons _ arraySize type fields =>
    let offset := alignUp pos type.extent.align
    type.offsets (base + offset) arraySize ++
      fields.offsets base (offset + type.extent.array arraySize)

end

namespace StorageBlock

/-- The offsets of the leaves of an element. -/
def std430Offsets (block : StorageBlock) : List Nat := block.element.offsets 0 block.inner

/-- From one element to the next. -/
def std430Stride (block : StorageBlock) : Nat :=
  max block.inner 1 * alignUp block.element.extent.size block.element.extent.align

/-- The layout is that of std430: so many leaves, each at its offset, and the stride. -/
structure Matches (block : StorageBlock) (layout : BufferLayout) : Prop where
  offsets : layout.dataMembers.map BufferMember.offset = block.std430Offsets
  stride : layout.arrayStride = block.std430Stride

end StorageBlock

/-! ## A walk along the leaves -/

/-- A leaf, or the beginning or the end of a structure. -/
inductive Boundary
  | edge (align : Nat)
  | leaf (type : LeafType)

mutual

def GlslType.events (arraySize : Nat) : GlslType → List Boundary
  | .leaf type => [.leaf type]
  | .struct fields => (List.replicate (max arraySize 1)
    (.edge fields.align :: fields.events ++ [.edge fields.align])).flatten

def GlslFields.events : GlslFields → List Boundary
  | .nil => []
  | .cons _ arraySize type fields => type.events arraySize ++ fields.events

end

/-- The offsets of the leaves and the end of a walk from a position on. -/
def walk : Nat → List Boundary → List Nat × Nat
  | pos, [] => ([], pos)
  | pos, .edge align :: events => walk (alignUp pos align) events
  | pos, .leaf type :: events =>
    let offset := alignUp pos type.extent.align
    let (offsets, finish) := walk (offset + type.extent.size) events
    (offset :: offsets, finish)

theorem walk_append (events events' : List Boundary) (pos : Nat) :
    walk pos (events ++ events') =
      ((walk pos events).1 ++ (walk (walk pos events).2 events').1,
        (walk (walk pos events).2 events').2) := by
  induction events generalizing pos with
  | nil => rfl
  | cons event events ih =>
    cases event with
    | edge align => exact ih _
    | leaf type =>
      simp only [cons_append, walk, ih]

/-- The leaves that a walk comes to. -/
def leaves : List Boundary → List LeafType
  | [] => []
  | .edge _ :: events => leaves events
  | .leaf type :: events => type :: leaves events

@[simp] theorem leaves_append (events events' : List Boundary) :
    leaves (events ++ events') = leaves events ++ leaves events' := by
  induction events with
  | nil => rfl
  | cons event events ih =>
    cases event with
    | edge align => exact ih
    | leaf type => exact congrArg (type :: ·) ih

theorem leaves_flatten (count : Nat) (events : List Boundary) :
    leaves (replicate count events).flatten =
      (replicate count (leaves events)).flatten := by
  induction count with
  | zero => rfl
  | succ count ih => simp only [replicate_succ, flatten_cons, leaves_append, ih]

/-! ### Alignments -/

/-- The alignments that there are. -/
def IsAlign (a : Nat) : Prop := a = 1 ∨ a = 4 ∨ a = 8 ∨ a = 16

namespace IsAlign

variable {a b : Nat}

theorem pos (ha : IsAlign a) : 0 < a := by
  rcases ha with rfl | rfl | rfl | rfl <;> decide

theorem dvd (ha : IsAlign a) (hb : IsAlign b) (hle : a ≤ b) : a ∣ b := by
  rcases ha with rfl | rfl | rfl | rfl <;> rcases hb with rfl | rfl | rfl | rfl <;>
    first | decide | exact absurd hle (by decide)

theorem max (ha : IsAlign a) (hb : IsAlign b) : IsAlign (max a b) := by
  rcases max_choice a b with h | h <;> rw [h]
  · exact ha
  · exact hb

theorem dvd_max (ha : IsAlign a) (hb : IsAlign b) : a ∣ Max.max a b ∧ b ∣ Max.max a b :=
  ⟨ha.dvd (ha.max hb) (le_max_left a b), hb.dvd (ha.max hb) (le_max_right a b)⟩

theorem alignUp_alignUp (ha : IsAlign a) (hb : IsAlign b) (n : Nat) :
    alignUp (alignUp n a) b = alignUp n (Max.max a b) := by
  rcases le_total a b with hle | hle
  · rw [max_eq_right hle]
    exact Lhatove.alignUp_alignUp ha.pos hb.pos (ha.dvd hb hle)
  · rw [max_eq_left hle]
    exact alignUp_of_dvd hb.pos ((hb.dvd ha hle).trans (dvd_alignUp n a))

end IsAlign

/-- A type with a format. -/
def LeafType.Known (type : LeafType) : Prop := (getDataFormat type).isSome = true

/-- What a buffer takes for a leaf: the alignment and the size of its format. -/
def LeafType.stored (type : LeafType) : Extent :=
  match getDataFormat type with
  | some format => ⟨format.alignment, format.info.size⟩
  | none => ⟨1, 0⟩

namespace LeafType.Known

variable {type : LeafType}

theorem shape (h : type.Known) :
    (∃ basicType components, type = .vector basicType components ∧
      components ∈ [1, 2, 3, 4]) ∨
    ∃ columns rows rowMajor, type = .matrix .float columns rows rowMajor ∧
      columns ∈ [2, 3, 4] ∧ rows ∈ [2, 3, 4] := by
  unfold LeafType.Known getDataFormat at h
  split at h <;> (try split at h) <;> simp at h ⊢

theorem isAlign_extent (h : type.Known) : IsAlign type.extent.align := by
  obtain ⟨basicType, components, rfl, hc⟩ | ⟨columns, rows, rowMajor, rfl, hc, hr⟩ := h.shape
  · fin_cases hc <;> simp [LeafType.extent, vectorAlign, IsAlign]
  · fin_cases hc <;> fin_cases hr <;> cases rowMajor <;>
      simp [LeafType.extent, vectorAlign, IsAlign]

theorem isAlign_stored (h : type.Known) : IsAlign type.stored.align := by
  obtain ⟨basicType, components, rfl, hc⟩ | ⟨columns, rows, rowMajor, rfl, hc, hr⟩ := h.shape
  · cases basicType <;> fin_cases hc <;>
      simp [LeafType.stored, getDataFormat, DataFormat.alignment, DataFormat.info, IsAlign]
  · fin_cases hc <;> fin_cases hr <;>
      simp [LeafType.stored, getDataFormat, DataFormat.alignment, DataFormat.info, IsAlign]

theorem stored_le (h : type.Known) : type.stored.size ≤ type.extent.size := by
  obtain ⟨basicType, components, rfl, hc⟩ | ⟨columns, rows, rowMajor, rfl, hc, hr⟩ := h.shape
  · cases basicType <;> fin_cases hc <;>
      simp [LeafType.stored, getDataFormat, DataFormat.info, LeafType.extent]
  · fin_cases hc <;> fin_cases hr <;> cases rowMajor <;> decide

end LeafType.Known

mutual

/-- No leaf is an array, and each has a format. -/
def GlslType.Plain (arraySize : Nat) : GlslType → Prop
  | .leaf type => arraySize = 0 ∧ type.Known
  | .struct fields => fields.Plain

def GlslFields.Plain : GlslFields → Prop
  | .nil => True
  | .cons _ arraySize type fields => type.Plain arraySize ∧ fields.Plain

end

mutual

theorem GlslType.isAlign {arraySize : Nat} :
    ∀ {type : GlslType}, type.Plain arraySize → IsAlign type.extent.align
  | .leaf _, h => h.2.isAlign_extent
  | .struct _, h => GlslFields.isAlign h

theorem GlslFields.isAlign : ∀ {fields : GlslFields}, fields.Plain → IsAlign fields.align
  | .nil, _ => .inl rfl
  | .cons _ _ _ _, h => (GlslType.isAlign h.1).max (GlslFields.isAlign h.2)

end

/-! ### std430 as a walk -/

/-- Structures one behind the other: each starts where the one before was padded to. -/
theorem walk_structs {fields : GlslFields} (hfields : fields.Plain)
    (hwalk : ∀ base pos, fields.align ∣ base →
      walk (base + pos) fields.events = (fields.offsets base pos, base + fields.finish pos))
    (count pos : Nat) :
    walk (alignUp pos fields.align) (replicate count
        (.edge fields.align :: fields.events ++ [.edge fields.align])).flatten =
      ((List.range count).flatMap fun i => fields.offsets
          (alignUp pos fields.align + i * alignUp (fields.finish 0) fields.align) 0,
        alignUp pos fields.align + count * alignUp (fields.finish 0) fields.align) := by
  have hpos := (GlslFields.isAlign hfields).pos
  induction count with
  | zero => simp [walk]
  | succ count ih =>
    rw [replicate_succ', flatten_append, walk_append, ih, range_succ,
      flatMap_append]
    -- the last structure, from a position that is aligned
    have hdvd : fields.align ∣ alignUp pos fields.align +
        count * alignUp (fields.finish 0) fields.align :=
      Nat.dvd_add (dvd_alignUp ..) (Dvd.dvd.mul_left (dvd_alignUp ..) count)
    generalize hstart : alignUp pos fields.align +
      count * alignUp (fields.finish 0) fields.align = start at *
    have hlast := hwalk start 0 hdvd
    rw [Nat.add_zero] at hlast
    simp only [flatten_cons, flatten_nil, append_nil, cons_append, walk,
      alignUp_of_dvd hpos hdvd, walk_append, hlast, alignUp_add hpos hdvd, flatMap_cons,
      flatMap_nil]
    rw [hstart, Nat.succ_mul, ← Nat.add_assoc, hstart]

theorem walk_edge {align : Nat} (hpos : 0 < align) {count pos : Nat}
    {events events' : List Boundary} :
    walk pos (replicate (max count 1) (.edge align :: events ++ events')).flatten =
      walk (alignUp pos align)
        (replicate (max count 1) (.edge align :: events ++ events')).flatten := by
  obtain ⟨n, hn⟩ : ∃ n, max count 1 = n + 1 := ⟨max count 1 - 1, by omega⟩
  simp only [hn, replicate_succ, flatten_cons, cons_append, walk,
    alignUp_of_dvd hpos (dvd_alignUp ..)]

mutual

/-- **A type**: std430 is a walk along its events. -/
theorem GlslType.walk_events {arraySize : Nat} :
    ∀ {type : GlslType}, type.Plain arraySize → ∀ base pos, type.extent.align ∣ base →
      walk (base + pos) (type.events arraySize) =
        (type.offsets (base + alignUp pos type.extent.align) arraySize,
          base + (alignUp pos type.extent.align + type.extent.array arraySize))
  | .leaf type, h, base, pos, hbase => by
    have hpos := h.2.isAlign_extent.pos
    have harray : type.extent.array arraySize = type.extent.size := by
      rw [Extent.array, if_pos h.1]
    rw [GlslType.extent] at hbase ⊢
    rw [harray, GlslType.events, GlslType.offsets]
    simp only [walk, alignUp_add hpos hbase, Nat.add_assoc]
  | .struct fields, h, base, pos, hbase => by
    have hpos := (GlslFields.isAlign h).pos
    have hstructs := walk_structs h (fun base pos => GlslFields.walk_events h base pos)
      (max arraySize 1) (base + pos)
    rw [GlslType.extent] at hbase ⊢
    rw [GlslType.events, GlslType.offsets, walk_edge hpos, hstructs,
      alignUp_add hpos hbase, Extent.array]
    refine Prod.ext rfl ?_
    rw [alignUp_of_dvd hpos (dvd_alignUp ..), Nat.add_assoc]
    rcases arraySize.eq_zero_or_pos with rfl | hcount
    · rw [if_pos rfl, Nat.zero_max, Nat.one_mul]
    · rw [if_neg hcount.ne', max_eq_left hcount]

theorem GlslFields.walk_events :
    ∀ {fields : GlslFields}, fields.Plain → ∀ base pos, fields.align ∣ base →
      walk (base + pos) fields.events = (fields.offsets base pos, base + fields.finish pos)
  | .nil, _, base, pos, _ => rfl
  | .cons _ arraySize type fields, h, base, pos, hbase => by
    obtain ⟨htype, hfields⟩ := h
    obtain ⟨hdvd, hdvd'⟩ := (GlslType.isAlign htype).dvd_max (GlslFields.isAlign hfields)
    rw [GlslFields.events, walk_append, GlslType.walk_events htype base pos (hdvd.trans hbase),
      GlslFields.walk_events hfields base _ (hdvd'.trans hbase), GlslFields.offsets,
      GlslFields.finish]

end

/-! ## The flattened format -/

/-- The format of a leaf. -/
def Reflects (type : LeafType) (decl : DataDeclaration) : Prop :=
  getDataFormat type = some decl.format

theorem mapM_eq_ok {α β : Type} {f : α → Except String β} :
    ∀ {l : List α} {added : List β}, l.mapM f = .ok added →
      List.Forall₂ (fun a b => f a = .ok b) l added
  | [], added, h => by
    cases h
    exact .nil
  | a :: l, added, h => by
    rw [mapM_cons] at h
    cases ha : f a with
    | error err => simp [ha, bind, Except.bind] at h
    | ok b =>
      cases hl : l.mapM f with
      | error err => simp [ha, hl, bind, Except.bind] at h
      | ok bs =>
        simp only [ha, hl, bind, Except.bind, pure, Except.pure, Except.ok.injEq] at h
        subst h
        exact .cons ha (mapM_eq_ok hl)

theorem DataDeclaration.arrayLength_of_check {decl : DataDeclaration} (h : decl.check = .ok ()) :
    decl.arrayLength = 0 := by
  by_contra hne
  unfold DataDeclaration.check at h
  rw [if_pos (Nat.pos_of_ne_zero hne)] at h
  cases h

mutual

/-- **A type**: what reflection adds are the formats of its leaves, and a buffer refuses
arrays of them. -/
theorem GlslType.addFieldsToFormat_leaves {level arraySize : Nat} {fieldName basename : String} :
    ∀ {type : GlslType} {format : List DataDeclaration},
      type.addFieldsToFormat level fieldName arraySize basename = .ok format →
      List.Forall₂ Reflects (leaves (type.events arraySize)) format ∧
        ((∀ decl ∈ format, decl.check = .ok ()) → type.Plain arraySize)
  | .leaf type, format, h => by
    rw [GlslType.addFieldsToFormat] at h
    cases hformat : getDataFormat type with
    | none => simp [hformat] at h
    | some f =>
      simp only [hformat, Except.ok.injEq] at h
      subst h
      refine ⟨.cons hformat .nil, fun hcheck => ⟨?_, ?_⟩⟩
      · exact DataDeclaration.arrayLength_of_check (hcheck _ (mem_singleton_self _))
      · exact Option.isSome_iff_exists.mpr ⟨f, hformat⟩
  | .struct fields, format, h => by
    rw [GlslType.addFieldsToFormat] at h
    cases hadded : (List.range (max arraySize 1)).mapM fun i =>
        fields.addFieldsToFormat (level + 1)
          (structName level fieldName arraySize basename i) with
    | error err => simp [hadded, bind, Except.bind] at h
    | ok added =>
      simp only [hadded, bind, Except.bind, pure, Except.pure, Except.ok.injEq] at h
      subst h
      have hall := mapM_eq_ok hadded
      have hfields : ∀ (l : List Nat) (added : List (List DataDeclaration)),
          List.Forall₂ (fun i added => fields.addFieldsToFormat (level + 1)
            (structName level fieldName arraySize basename i) = .ok added) l added →
          List.Forall₂ Reflects
            (replicate l.length (leaves fields.events)).flatten added.flatten ∧
          (l ≠ [] → (∀ decl ∈ added.flatten, decl.check = .ok ()) → fields.Plain) := by
        intro l added hall
        induction hall with
        | nil => exact ⟨.nil, fun h => absurd rfl h⟩
        | cons hi _ ih =>
          obtain ⟨hleaves, hplain⟩ := GlslFields.addFieldsToFormat_leaves hi
          refine ⟨rel_append hleaves ih.1, fun _ hcheck => hplain fun decl hdecl => ?_⟩
          exact hcheck decl (mem_append_left _ hdecl)
      obtain ⟨hleaves, hplain⟩ := hfields _ _ hall
      refine ⟨?_, hplain ?_⟩
      · rw [GlslType.events, leaves_flatten]
        simpa [leaves] using hleaves
      · intro hnil
        have hlength := congrArg length hnil
        rw [length_range, length_nil] at hlength
        omega

theorem GlslFields.addFieldsToFormat_leaves {level : Nat} {basename : String} :
    ∀ {fields : GlslFields} {format : List DataDeclaration},
      fields.addFieldsToFormat level basename = .ok format →
      List.Forall₂ Reflects (leaves fields.events) format ∧
        ((∀ decl ∈ format, decl.check = .ok ()) → fields.Plain)
  | .nil, format, h => by
    cases h
    exact ⟨.nil, fun _ => trivial⟩
  | .cons fieldName arraySize type fields, format, h => by
    rw [GlslFields.addFieldsToFormat] at h
    cases htype : type.addFieldsToFormat level fieldName arraySize basename with
    | error err => simp [htype, bind, Except.bind] at h
    | ok added =>
      cases hfields : fields.addFieldsToFormat level basename with
      | error err => simp [htype, hfields, bind, Except.bind] at h
      | ok rest =>
        simp only [htype, hfields, bind, Except.bind, pure, Except.pure, Except.ok.injEq] at h
        subst h
        obtain ⟨hleaves, hplain⟩ := GlslType.addFieldsToFormat_leaves htype
        obtain ⟨hleaves', hplain'⟩ := GlslFields.addFieldsToFormat_leaves hfields
        refine ⟨?_, fun hcheck => ⟨hplain fun decl hdecl => ?_, hplain' fun decl hdecl => ?_⟩⟩
        · rw [GlslFields.events, leaves_append]
          exact rel_append hleaves hleaves'
        · exact hcheck decl (mem_append_left _ hdecl)
        · exact hcheck decl (mem_append_right _ hdecl)

end

/-! ## The layout of a buffer -/

/-- The leaves alone, one after the other. -/
def pack : Nat → List LeafType → List Nat × Nat
  | pos, [] => ([], pos)
  | pos, type :: types =>
    let offset := alignUp pos type.stored.align
    let (offsets, finish) := pack (offset + type.stored.size) types
    (offset :: offsets, finish)

/-- The alignment of the structure that they make. -/
def packAlign : List LeafType → Nat
  | [] => 1
  | type :: types => max type.stored.align (packAlign types)

theorem one_le_packAlign (types : List LeafType) : 1 ≤ packAlign types := by
  induction types with
  | nil => exact le_rfl
  | cons type types ih => exact le_max_of_le_right ih

theorem Reflects.stored {type : LeafType} {decl : DataDeclaration} (h : Reflects type decl) :
    type.stored = ⟨decl.format.alignment, decl.format.info.size⟩ := by
  rw [LeafType.stored, show getDataFormat type = some decl.format from h]

/-- **The layout loop** places the members as the walk along the leaves alone does. -/
theorem layoutLoop_pack {packed : Bool} {types : List LeafType} {format : List DataDeclaration}
    (h : List.Forall₂ Reflects types format) :
    ∀ {offset align : Nat} {members : List BufferMember} {finish align' : Nat}, 0 < align →
      layoutLoop packed format offset align = .ok (members, finish, align') →
      (∀ decl ∈ format, decl.check = .ok ()) ∧
        pack offset types = (members.map BufferMember.offset, finish) ∧
        align' = max align (packAlign types) := by
  induction h with
  | nil =>
    intro offset align members finish align' halign h
    cases h
    exact ⟨fun _ hmem => absurd hmem not_mem_nil, rfl, (max_eq_left halign).symm⟩
  | @cons type decl types format hdecl _ ih =>
    intro offset align members finish align' halign h
    rw [layoutLoop] at h
    cases hcheck : decl.check with
    | error err => simp [hcheck, bind, Except.bind] at h
    | ok =>
      simp only [hcheck, bind, Except.bind] at h
      split_ifs at h
      cases hrest : layoutLoop packed format
          (alignUp offset decl.format.alignment + decl.format.info.size)
          (max align decl.format.alignment) with
      | error err => simp [hrest] at h
      | ok result =>
        obtain ⟨rest, finish', align''⟩ := result
        simp only [hrest, pure, Except.pure, Except.ok.injEq, Prod.mk.injEq] at h
        obtain ⟨rfl, rfl, rfl⟩ := h
        obtain ⟨hchecks, hpack, rfl⟩ := ih (halign.trans_le (le_max_left ..)) hrest
        refine ⟨forall_mem_cons.mpr ⟨hcheck, hchecks⟩, ?_, ?_⟩
        · simp only [pack, hdecl.stored, hpack, map_cons]
        · rw [packAlign, hdecl.stored, max_assoc]

theorem bufferLayout_pack {packed : Bool} {types : List LeafType} {format : List DataDeclaration}
    {layout : BufferLayout} (h : List.Forall₂ Reflects types format)
    (hlayout : bufferLayout packed format = .ok layout) :
    types ≠ [] ∧ (∀ decl ∈ format, decl.check = .ok ()) ∧
      layout.dataMembers.map BufferMember.offset = (pack 0 types).1 ∧
      layout.arrayStride = alignUp (pack 0 types).2 (packAlign types) := by
  unfold bufferLayout at hlayout
  split_ifs at hlayout with hempty
  cases hloop : layoutLoop packed format 0 1 with
  | error err => simp [hloop, bind, Except.bind] at hlayout
  | ok result =>
    obtain ⟨members, finish, align⟩ := result
    simp only [hloop, bind, Except.bind] at hlayout
    split_ifs at hlayout
    cases hlayout
    obtain ⟨hchecks, hpack, rfl⟩ := layoutLoop_pack h Nat.one_pos hloop
    refine ⟨?_, hchecks, ?_, ?_⟩
    · rintro rfl
      cases h
      exact hempty rfl
    · rw [hpack]
    · rw [hpack, max_eq_right (one_le_packAlign types)]

/-! ## Where both walks agree -/

/-- From `pos` on, the next multiple of `b` is also the next multiple of `a` that leaves room
for `gap`. -/
structure Lands (pos gap a b : Nat) : Prop where
  aligned : a ∣ alignUp pos b
  room : pos + gap ≤ alignUp pos b
  next : alignUp pos b < pos + gap + a

theorem lands_iff {pos gap a b : Nat} (ha : 0 < a) :
    alignUp (pos + gap) a = alignUp pos b ↔ Lands pos gap a b := by
  rw [alignUp_eq ha]
  exact ⟨fun ⟨h, h', h''⟩ => ⟨h, h', h''⟩, fun ⟨h, h', h''⟩ => ⟨h, h', h''⟩⟩

/-- Along the leaves alone, each one lands where the structures that begin or end before it
(they ask for `align`) and the rows of a matrix before it (`gap`) put it, and so does the end. -/
def Seamless (top stored : Nat) : Nat → Nat → Nat → List Boundary → Prop
  | pos, gap, _, [] => Lands pos gap top stored
  | pos, gap, align, .edge edge :: events => Seamless top stored pos gap (max align edge) events
  | pos, gap, align, .leaf type :: events =>
    Lands pos gap (max align type.extent.align) type.stored.align ∧
      Seamless top stored (alignUp pos type.stored.align + type.stored.size)
        (type.extent.size - type.stored.size) 1 events

/-- The alignments of a walk, up to that of the element. -/
def Aligned (top : Nat) : List Boundary → Prop
  | [] => True
  | .edge align :: events => (IsAlign align ∧ align ≤ top) ∧ Aligned top events
  | .leaf type :: events => type.Known ∧ Aligned top events

/-- **Both walks** come to the same offsets and to the same end if and only if there is no
seam. -/
theorem walk_eq_pack {top stored : Nat} (htop : IsAlign top) {events : List Boundary} :
    ∀ {pos gap align : Nat}, Aligned top events → IsAlign align → align ≤ top →
      ((walk (alignUp (pos + gap) align) events).1 = (pack pos (leaves events)).1 ∧
          alignUp (walk (alignUp (pos + gap) align) events).2 top =
            alignUp (pack pos (leaves events)).2 stored ↔
        Seamless top stored pos gap align events) := by
  induction events with
  | nil =>
    intro pos gap align _ halign hle
    simp only [walk, leaves, pack, Seamless, true_and]
    rw [alignUp_alignUp halign.pos htop.pos (halign.dvd htop hle), lands_iff htop.pos]
  | cons event events ih =>
    intro pos gap align hevents halign hle
    cases event with
    | edge edge =>
      obtain ⟨⟨hedge, hedgetop⟩, hevents⟩ := hevents
      rw [walk, halign.alignUp_alignUp hedge, leaves, Seamless]
      exact ih hevents (halign.max hedge) (max_le hle hedgetop)
    | leaf type =>
      obtain ⟨hknown, hevents⟩ := hevents
      have hextent := hknown.isAlign_extent
      simp only [walk, leaves, pack, Seamless, halign.alignUp_alignUp hextent, List.cons.injEq,
        and_assoc, ← lands_iff (halign.max hextent).pos]
      refine and_congr_right fun hlands => ?_
      -- behind the leaf, the walks differ by what the rows leave empty
      have hsize : alignUp pos type.stored.align + type.extent.size =
          alignUp (alignUp pos type.stored.align + type.stored.size +
            (type.extent.size - type.stored.size)) 1 := by
        have := hknown.stored_le
        rw [alignUp_one]
        omega
      rw [hlands, ← ih hevents (.inl rfl) htop.pos, hsize]

theorem Aligned.append {top : Nat} {events events' : List Boundary} (h : Aligned top events)
    (h' : Aligned top events') : Aligned top (events ++ events') := by
  induction events with
  | nil => exact h'
  | cons event events ih =>
    cases event with
    | edge align | leaf type => exact ⟨h.1, ih h.2⟩

mutual

theorem GlslType.Plain.aligned {top arraySize : Nat} :
    ∀ {type : GlslType}, type.Plain arraySize → type.extent.align ≤ top →
      Aligned top (type.events arraySize)
  | .leaf _, h, _ => ⟨h.2, trivial⟩
  | .struct fields, h, hle => by
    have hfields := @GlslFields.Plain.aligned _ fields h hle
    rw [GlslType.events]
    induction max arraySize 1 with
    | zero => exact trivial
    | succ count ih =>
      refine Aligned.append ⟨⟨GlslFields.isAlign h, hle⟩, ?_⟩ ih
      exact hfields.append ⟨⟨GlslFields.isAlign h, hle⟩, trivial⟩

theorem GlslFields.Plain.aligned {top : Nat} :
    ∀ {fields : GlslFields}, fields.Plain → fields.align ≤ top → Aligned top fields.events
  | .nil, _, _ => trivial
  | .cons _ _ _ _, h, hle => (GlslType.Plain.aligned h.1 ((le_max_left ..).trans hle)).append
    (GlslFields.Plain.aligned h.2 ((le_max_right ..).trans hle))

end

/-! ## Blocks -/

instance (pos gap a b : Nat) : Decidable (Lands pos gap a b) :=
  decidable_of_iff (a ∣ alignUp pos b ∧ pos + gap ≤ alignUp pos b ∧ alignUp pos b < pos + gap + a)
    ⟨fun ⟨h, h', h''⟩ => ⟨h, h', h''⟩, fun ⟨h, h', h''⟩ => ⟨h, h', h''⟩⟩

instance Seamless.decidable (top stored : Nat) :
    ∀ pos gap align events, Decidable (Seamless top stored pos gap align events)
  | pos, gap, _, [] => inferInstanceAs (Decidable (Lands pos gap top stored))
  | pos, gap, align, .edge edge :: events =>
    Seamless.decidable top stored pos gap (max align edge) events
  | pos, gap, align, .leaf type :: events =>
    have := Seamless.decidable top stored (alignUp pos type.stored.align + type.stored.size)
      (type.extent.size - type.stored.size) 1 events
    inferInstanceAs (Decidable (Lands pos gap (max align type.extent.align) type.stored.align ∧ _))

/-- An element is no array, and none of its structures has padding that the leaves alone
would not have. -/
structure StorageBlock.Flat (block : StorageBlock) : Prop where
  inner : block.inner ≤ 1
  seamless : Seamless block.element.extent.align (packAlign (leaves (block.element.events 0)))
    0 0 1 (block.element.events 0)

theorem walk_length (events : List Boundary) (pos : Nat) :
    (walk pos events).1.length = (leaves events).length := by
  induction events generalizing pos with
  | nil => rfl
  | cons event events ih =>
    cases event with
    | edge align => exact ih _
    | leaf type => exact congrArg (· + 1) (ih _)

theorem pack_length (types : List LeafType) (pos : Nat) :
    (pack pos types).1.length = types.length := by
  induction types generalizing pos with
  | nil => rfl
  | cons type types ih => exact congrArg (· + 1) (ih _)

theorem GlslType.leaves_struct (arraySize : Nat) (fields : GlslFields) :
    (leaves ((GlslType.struct fields).events arraySize)).length =
      max arraySize 1 * (leaves fields.events).length := by
  rw [GlslType.events, leaves_flatten]
  simp [leaves]

theorem GlslType.walk_zero {arraySize : Nat} {type : GlslType} (h : type.Plain arraySize) :
    walk 0 (type.events arraySize) =
      (type.offsets 0 arraySize, type.extent.array arraySize) := by
  have hwalk := GlslType.walk_events h 0 0 (dvd_zero _)
  rw [alignUp_of_dvd (GlslType.isAlign h).pos (dvd_zero _)] at hwalk
  simpa only [Nat.zero_add] using hwalk

theorem LeafType.Known.stride_lt {type : LeafType} (h : type.Known) :
    alignUp type.stored.size type.stored.align <
      2 * alignUp type.extent.size type.extent.align := by
  obtain ⟨basicType, components, rfl, hc⟩ | ⟨columns, rows, rowMajor, rfl, hc, hr⟩ := h.shape
  · cases basicType with
    | other number => exact absurd h Bool.false_ne_true
    | _ => fin_cases hc <;> decide
  · fin_cases hc <;> fin_cases hr <;> cases rowMajor <;> decide

/-- An element that is an array has more leaves than its format, or a longer stride. -/
theorem StorageBlock.Matches.inner_le {block : StorageBlock} {layout : BufferLayout}
    (h : block.Matches layout) (hplain : block.element.Plain 0)
    (hleaves : leaves (block.element.events 0) ≠ [])
    (hoffsets : layout.dataMembers.map BufferMember.offset =
      (pack 0 (leaves (block.element.events 0))).1)
    (hstride : layout.arrayStride = alignUp (pack 0 (leaves (block.element.events 0))).2
      (packAlign (leaves (block.element.events 0)))) :
    block.inner ≤ 1 := by
  by_contra hinner
  have hlength := congrArg length (hoffsets.symm.trans h.offsets)
  have hstd := hstride.symm.trans h.stride
  rw [pack_length] at hlength
  rw [StorageBlock.std430Offsets] at hlength
  rw [StorageBlock.std430Stride, max_eq_left (by omega)] at hstd
  cases htype : block.element with
  | leaf type =>
    rw [htype] at hplain hstd
    have hlt := hplain.2.stride_lt
    have hpos : 1 ≤ type.stored.align := hplain.2.isAlign_stored.pos
    simp only [GlslType.events, leaves, pack, packAlign, max_eq_left hpos,
      alignUp_of_dvd hpos (dvd_zero _), Nat.zero_add, GlslType.extent] at hstd
    have := Nat.mul_le_mul_right (alignUp type.extent.size type.extent.align)
      (Nat.lt_of_not_le hinner)
    omega
  | struct fields =>
    rw [htype] at hplain hlength hleaves
    have hwalk := congrArg (fun placed => placed.1.length)
      (@walk_zero block.inner (.struct fields) hplain)
    rw [← hwalk, walk_length, leaves_struct, leaves_struct, Nat.zero_max,
      Nat.max_eq_left (by omega), Nat.one_mul] at hlength
    have hpos := length_pos_iff.mpr hleaves
    rw [leaves_struct, Nat.zero_max, Nat.one_mul] at hpos
    have := Nat.mul_le_mul_right (leaves fields.events).length (Nat.lt_of_not_le hinner)
    omega

/-- **Storage formats match std430 exactly when they are flat**: the buffer that is made
from the format of a block has each leaf, and the stride, where std430 has them if and only
if no structure in the block needs padding of its own. -/
theorem matches_iff {block : StorageBlock} {packed : Bool} {format : List DataDeclaration}
    {layout : BufferLayout} (hformat : block.bufferFormat = .ok format)
    (hlayout : bufferLayout packed format = .ok layout) :
    block.Matches layout ↔ block.Flat := by
  obtain ⟨hreflects, hplain⟩ := GlslType.addFieldsToFormat_leaves hformat
  obtain ⟨hleaves, hchecks, hoffsets, hstride⟩ := bufferLayout_pack hreflects hlayout
  have hplain := hplain hchecks
  have htop := GlslType.isAlign hplain
  have hwalks := @walk_eq_pack _ (packAlign (leaves (block.element.events 0))) htop _ 0 0 1
    (hplain.aligned le_rfl) (.inl rfl) htop.pos
  rw [alignUp_one, Nat.add_zero, walk_zero hplain] at hwalks
  -- an element that is no array
  have hsingle : block.inner ≤ 1 → block.std430Offsets = block.element.offsets 0 0 ∧
      block.std430Stride = alignUp (block.element.extent.array 0) block.element.extent.align := by
    intro hinner
    have hone : max block.inner 1 = 1 := max_eq_right hinner
    rw [StorageBlock.std430Offsets, StorageBlock.std430Stride, hone, Nat.one_mul]
    refine ⟨?_, rfl⟩
    cases block.element with
    | leaf type => rfl
    | struct fields => rw [GlslType.offsets, GlslType.offsets, hone, Nat.zero_max]
  constructor
  · intro hmatches
    have hinner := hmatches.inner_le hplain hleaves hoffsets hstride
    obtain ⟨hoffsets', hstride'⟩ := hsingle hinner
    refine ⟨hinner, hwalks.mp ⟨?_, ?_⟩⟩
    · rw [← hoffsets', ← hoffsets, hmatches.offsets]
    · rw [← hstride', ← hstride, hmatches.stride]
  · rintro ⟨hinner, hseamless⟩
    obtain ⟨hoffsets', hstride'⟩ := hsingle hinner
    obtain ⟨hwalk, hend⟩ := hwalks.mpr hseamless
    refine ⟨?_, ?_⟩
    · rw [hoffsets', hoffsets, ← hwalk]
    · rw [hstride', hstride, ← hend]

/-- `{ vec4 color; float size; vec2 uv; } particles[];` is flat. -/
theorem matches_particles :
    let block : StorageBlock := ⟨"particles", .struct
      (.cons "color" 0 (.leaf (.vector .float 4)) (.cons "size" 0 (.leaf (.vector .float 1))
        (.cons "uv" 0 (.leaf (.vector .float 2)) .nil))), 0⟩
    block.Matches ⟨[⟨⟨"" ++ "color", .floatVec4, 0⟩, 0, 16⟩, ⟨⟨"" ++ "size", .float, 0⟩, 16, 4⟩,
      ⟨⟨"" ++ "uv", .floatVec2, 0⟩, 24, 8⟩], 32⟩ :=
  (@matches_iff _ false _ _ rfl rfl).mpr ⟨by decide, by decide⟩

/-- In `{ float mass; struct { float angle; vec4 axis; } spin; } bodies[];`, the structure
starts at 16, and a buffer has its first field at 4. -/
theorem not_always_matches : ¬∀ (block : StorageBlock) (packed : Bool)
    (format : List DataDeclaration) (layout : BufferLayout), block.bufferFormat = .ok format →
    bufferLayout packed format = .ok layout → block.Matches layout := by
  intro h
  have hmatches := h ⟨"bodies", .struct
    (.cons "mass" 0 (.leaf (.vector .float 1)) (.cons "spin" 0 (.struct
      (.cons "angle" 0 (.leaf (.vector .float 1)) (.cons "axis" 0 (.leaf (.vector .float 4)) .nil)))
      .nil)), 0⟩ false _ _ rfl rfl
  exact absurd hmatches.offsets (by decide)

end Lhatove.Graphics
