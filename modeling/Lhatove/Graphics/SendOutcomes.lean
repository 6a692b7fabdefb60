import Lhatove.Graphics.SendStores

/-!
# Sends that do all or nothing

When a send stays within the data of its uniform, and changes nothing where it raises.

- `WrongKind`: what an argument must not be;
- `Fits`: elements whose stores are within the data, one element behind the other;
- `sendTo_sound_iff`: of numbers, the first is of a wrong kind, or none is, the uniform has data, and
  the update does not fail; of textures, the first is refused, or none is.
-/

namespace Lhatove.Graphics.ShaderSend

open Program List

/-! ## What is expected -/

section Expected

variable {Number : Type} (info : TypedUniform) (args : List (Value Number))

/-- A value that the uniform does not take, at a position. -/
def WrongKind (i : Nat) : Prop :=
  match info.baseType with
  | .float | .int | .uint =>
    info.rows ≠ 1 ∧ isNumber (argument args 0) = false ∧ isTable (argument args i) = false
  | .bool => info.rows ≠ 1 ∧ isTable (argument args i) = false
  | .matrix =>
    isTable (argument args i) = false ∧
      ¬ (isTransform (argument args i) = true ∧ info.columns = 4 ∧ info.rows = 4)
  | .sampler | .storageTexture => isTexture (argument args i) = false
  | .texelBuffer | .storageBuffer | .unknown => False

/-- The first value is of a wrong kind, or none is, there are data, and nothing fails that is not
in the values. -/
def NumbersOrderly (host : Host Number) (active current : Bool) : Prop :=
  WrongKind info args 0 ∨
    (∀ i < sendCount args.length info, ¬ WrongKind info args i) ∧ active = true ∧
      (current = true → host.flushBatchedDraws = .ok ())

/-- So it is with textures, which the shader may refuse, too. -/
def TexturesOrderly (host : Host Number) (active current : Bool) : Prop :=
  (∃ i < sendCount args.length info, WrongKind info args i) ∨
    (current = true ∧ host.flushBatchedDraws ≠ .ok ()) ∨
    (∃ t, argument args 0 = .texture t ∧ host.validateTexture info t ≠ .ok ()) ∨
    active = true ∧ ∀ i < sendCount args.length info, ∀ t, argument args i = .texture t →
      host.validateTexture info t = .ok ()

def Orderly (host : Host Number) (active current : Bool) : Prop :=
  args ≠ [] →
    match info.baseType with
    | .float | .matrix | .int | .uint | .bool => NumbersOrderly info args host active current
    | .sampler | .storageTexture => TexturesOrderly info args host active current
    | .texelBuffer | .storageBuffer | .unknown => True

/-- A shader that has the uniform, with data if it is active. -/
structure Linked (active current : Bool) (s : Shader) : Prop where
  known : s.getUniformInfo info.name = some info
  inactive : active = false → s.data info.name = none
  allocated : active = true →
    ∃ data, s.data info.name = some data ∧ data.length = info.packedSize
  isCurrent : s.isCurrent = current

/-- What uniforms are: numbers, updates that wait, and textures. -/
structure SameUniforms (s t : Shader) : Prop where
  data : t.data = s.data
  pending : t.pendingUniformUpdates = s.pendingUniformUpdates
  gl : t.glUniforms = s.glUniforms
  textures : t.activeTextures = s.activeTextures
  units : t.textureUnits = s.textureUnits

/-- A call stays within the data, and where it raises, it is as though it had not been. -/
structure AllOrNothing (s : Shader) (result : EStateM.Result Fault Shader Unit) : Prop where
  defined : ∀ t, result ≠ .error .undefined t
  others : ∀ name ≠ info.name, (final result).data name = s.data name
  unchanged : ∀ message t, result = .error (.raised message) t → SameUniforms s t

end Expected

/-! ## Elements that fit -/

theorem offset_lt {i n k m : Nat} (hi : i < n) (hk : k < m) : i * m + k < m * n := by
  have hnext : (i + 1) * m ≤ n * m := Nat.mul_le_mul_right m hi
  rw [Nat.succ_mul] at hnext
  rw [Nat.mul_comm m n]
  omega

theorem mem_componentsAt {i components : Nat} {f : Nat → UniformWord} {p : Nat × UniformWord} :
    p ∈ componentsAt i components f ↔ ∃ c < components, (i * components + c, f c) = p := by
  rw [componentsAt, mem_map]
  simp only [mem_range]

/-- The elements of the values: the stores of each are within the data, and begin where it does. -/
structure Fits {Number : Type} (info : TypedUniform) (args : List (Value Number)) (e : Elements) :
    Prop where
  pos : 0 < e.n
  le : e.n ≤ info.count
  within : ∀ i < e.n, ∀ stores, e.element i = .ok stores → ∀ p ∈ stores, p.1 < info.packedSize
  begins : ∀ stores, e.element 0 = .ok stores → ∃ word, (0, word) ∈ stores
  first : (∃ message, e.element 0 = .error message) ↔ WrongKind info args 0
  others : (∀ i < e.n, ∃ stores, e.element i = .ok stores) ↔
    ∀ i < sendCount args.length info, ¬ WrongKind info args i

section Elements

variable {Number : Type} {host : Host Number} {info : TypedUniform} {args : List (Value Number)}

theorem columns_vector (h : info.baseType ≠ .matrix) : info.columns = 1 :=
  UniformInfo.columns_of_vector (eq_false_of_ne_true (mt info.matrix_iff.mpr h))

theorem packedSize_vector (h : info.baseType ≠ .matrix) :
    info.packedSize = info.rows * info.count := by
  rw [TypedUniform.packedSize, TypedUniform.elementSize, columns_vector h, Nat.one_mul]

theorem sendCount_pos (hargs : args ≠ []) : 0 < sendCount args.length info :=
  lt_min (length_pos_iff.mpr hargs) info.count_pos

theorem fits_each (hargs : args ≠ []) {element : Nat → Except String Stores}
    (hwrong : ∀ i, (∃ message, element i = .error message) ↔ WrongKind info args i)
    (hok : ∀ i stores, element i = .ok stores → (∃ word, (i * info.elementSize, word) ∈ stores) ∧
      ∀ p ∈ stores, ∃ k < info.elementSize, p.1 = i * info.elementSize + k) :
    Fits info args ⟨sendCount args.length info, element⟩ where
  pos := sendCount_pos hargs
  le := min_le_right _ _
  within := by
    intro i hi stores hstores p hp
    obtain ⟨k, hk, hat⟩ := (hok i stores hstores).2 p hp
    rw [hat]
    exact offset_lt (lt_of_lt_of_le hi (min_le_right _ _)) hk
  begins := by
    intro stores hstores
    have h := (hok 0 stores hstores).1
    rwa [Nat.zero_mul] at h
  first := hwrong 0
  others := by
    refine forall_congr' fun i => forall_congr' fun _ => ?_
    rw [← hwrong i]
    show (∃ stores, element i = .ok stores) ↔ ¬ ∃ message, element i = .error message
    cases element i with
    | error message =>
      refine iff_of_false ?_ fun h => h ⟨message, rfl⟩
      rintro ⟨stores, h⟩
      cases h
    | ok stores =>
      refine iff_of_true ⟨stores, rfl⟩ ?_
      rintro ⟨message, h⟩
      cases h

theorem elementSize_vector (h : info.baseType ≠ .matrix) : info.elementSize = info.rows := by
  rw [TypedUniform.elementSize, columns_vector h, Nat.one_mul]

theorem componentsAt_fit {i size : Nat} (hsize : 0 < size) {f : Nat → UniformWord} :
    (∃ word, (i * size, word) ∈ componentsAt i size f) ∧
      ∀ p ∈ componentsAt i size f, ∃ k < size, p.1 = i * size + k := by
  constructor
  · exact ⟨f 0, mem_componentsAt.mpr ⟨0, hsize, rfl⟩⟩
  · intro p hp
    obtain ⟨c, hc, rfl⟩ := mem_componentsAt.mp hp
    exact ⟨c, hc, rfl⟩

theorem single_fit {i : Nat} {word : UniformWord} :
    (∃ w, (i * 1, w) ∈ [(i, word)]) ∧ ∀ p ∈ [(i, word)], ∃ k < 1, p.1 = i * 1 + k := by
  rw [Nat.mul_one]
  refine ⟨⟨word, mem_singleton_self _⟩, fun p hp => ⟨0, Nat.one_pos, ?_⟩⟩
  rw [mem_singleton.mp hp, Nat.add_zero]

theorem numbersOf_isSome (host : Host Number) (value : Value Number) :
    numbersOf host value = none ↔ isTable value = false := by
  cases value with
  | table length get => exact iff_of_false (fun h => by cases h) (fun h => by cases h)
  | number x | boolean b | transform elements | texture t | other => exact iff_of_true rfl rfl

theorem fits_numbers (hargs : args ≠ [])
    (htype : info.baseType = .float ∨ info.baseType = .int ∨ info.baseType = .uint)
    (ofNumber : Number → UniformWord) (ofFloat : UniformWord → UniformWord) :
    Fits info args (numberElements host info args ofNumber ofFloat) := by
  have hvector : info.baseType ≠ .matrix := by
    rcases htype with h | h | h <;> rw [h] <;> decide
  have hwrong : ∀ i, WrongKind info args i ↔ info.rows ≠ 1 ∧
      isNumber (argument args 0) = false ∧ isTable (argument args i) = false := by
    intro i
    rw [WrongKind]
    rcases htype with h | h | h <;> rw [h]
  have hsize := elementSize_vector hvector
  rw [numberElements]
  split_ifs with hrows hnumber
  · refine fits_each hargs (fun i => ?_) fun i stores h => ?_
    · rw [hwrong]
      refine iff_of_false ?_ fun h => h.1 hrows
      rintro ⟨message, h⟩
      cases h
    · cases h
      rw [hsize, hrows]
      exact single_fit
  · -- one element, whatever there is behind its first number
    have hnever : ∀ i, ¬ WrongKind info args i := by
      intro i h
      have hfirst := ((hwrong i).mp h).2.1
      rw [hnumber] at hfirst
      cases hfirst
    constructor
    · exact Nat.one_pos
    · exact info.count_pos
    · intro i _ stores h p hp
      cases h
      obtain ⟨c, hc, rfl⟩ := mem_componentsAt.mp hp
      rw [packedSize_vector hvector]
      exact offset_lt info.count_pos hc
    · intro stores h
      cases h
      exact ⟨_, mem_componentsAt.mpr ⟨0, info.rows_le.1, by rw [Nat.zero_mul]⟩⟩
    · refine iff_of_false ?_ (hnever 0)
      rintro ⟨message, h⟩
      cases h
    · exact iff_of_true (fun i _ => ⟨_, rfl⟩) fun i _ => hnever i
  · have hfirst : isNumber (argument args 0) = false := eq_false_of_ne_true hnumber
    refine fits_each hargs (fun i => ?_) fun i stores h => ?_
    · rw [hwrong, ← numbersOf_isSome host]
      cases hparts : numbersOf host (argument args i) with
      | none => exact iff_of_true ⟨_, rfl⟩ ⟨hrows, hfirst, rfl⟩
      | some parts =>
        refine iff_of_false ?_ fun h => ?_
        · rintro ⟨message, h⟩
          cases h
        · cases h.2.2
    · split at h
      · cases h
      next parts hparts =>
        cases h
        rw [hsize]
        exact componentsAt_fit info.rows_le.1

theorem fits_booleans (hargs : args ≠ []) (htype : info.baseType = .bool) :
    Fits info args (booleanElements info args) := by
  have hvector : info.baseType ≠ .matrix := by
    rw [htype]
    decide
  have hwrong : ∀ i, WrongKind info args i ↔
      info.rows ≠ 1 ∧ isTable (argument args i) = false := by
    intro i
    rw [WrongKind, htype]
  have hsize := elementSize_vector hvector
  rw [booleanElements]
  split_ifs with hrows
  · refine fits_each hargs (fun i => ?_) fun i stores h => ?_
    · rw [hwrong]
      refine iff_of_false ?_ fun h => h.1 hrows
      rintro ⟨message, h⟩
      cases h
    · cases h
      rw [hsize, hrows]
      exact single_fit
  · refine fits_each hargs (fun i => ?_) fun i stores h => ?_
    · rw [hwrong]
      cases argument args i with
      | table length get =>
        refine iff_of_false ?_ fun h => ?_
        · rintro ⟨message, h⟩
          cases h
        · cases h.2
      | number x | boolean b | transform elements | texture t | other =>
        exact iff_of_true ⟨_, rfl⟩ ⟨hrows, rfl⟩
    · cases hvalue : argument args i with
      | table length get =>
        rw [hvalue] at h
        cases h
        rw [hsize]
        exact componentsAt_fit info.rows_le.1
      | number x | boolean b | transform elements | texture t | other => rw [hvalue] at h; cases h

theorem mem_rowStores {i : Nat} {get : Nat → Value Number} {p : Nat × UniformWord} :
    p ∈ rowStores host info i get ↔ ∃ row < info.rows, ∃ column < info.columns,
      (i * info.elementSize + (column * info.rows + row),
        ((numbersOf host (get (row + 1))).getD []).getD column 0) = p := by
  rw [rowStores, mem_flatMap]
  simp only [mem_range, mem_map]

theorem elementSize_pos (info : TypedUniform) : 0 < info.elementSize :=
  Nat.mul_pos info.columns_le.1 info.rows_le.1

theorem fits_matrices (hargs : args ≠ []) (htype : info.baseType = .matrix) :
    Fits info args (matrixElements host info args) := by
  have hwrong : ∀ i, WrongKind info args i ↔ isTable (argument args i) = false ∧
      ¬ (isTransform (argument args i) = true ∧ info.columns = 4 ∧ info.rows = 4) := by
    intro i
    rw [WrongKind, htype]
  refine fits_each hargs (fun i => ?_) fun i stores h => ?_
  · rw [hwrong]
    cases argument args i with
    | transform elements =>
      split_ifs with hsquare
      · refine iff_of_false ?_ fun h => h.2 ⟨rfl, hsquare⟩
        rintro ⟨message, h⟩
        cases h
      · exact iff_of_true ⟨_, rfl⟩ ⟨rfl, fun h => hsquare h.2⟩
    | table length get =>
      dsimp only
      refine iff_of_false ?_ fun h => ?_
      · rintro ⟨message, h⟩
        split_ifs at h
      · cases h.1
    | number x | boolean b | texture t | other =>
      exact iff_of_true ⟨_, rfl⟩ ⟨rfl, fun h => by cases h.1⟩
  · cases hvalue : argument args i with
    | transform elements =>
      rw [hvalue] at h
      split_ifs at h with hsquare
      cases h
      rw [TypedUniform.elementSize, hsquare.1, hsquare.2]
      exact componentsAt_fit (by decide)
    | table length get =>
      rw [hvalue] at h
      dsimp only at h
      split_ifs at h with hrows
      · cases h
        constructor
        · have hfirst : _ ∈ rowStores host info i get :=
            mem_rowStores.mpr ⟨0, info.rows_le.1, 0, info.columns_le.1, rfl⟩
          rw [Nat.zero_mul, Nat.add_zero, Nat.add_zero] at hfirst
          exact ⟨_, hfirst⟩
        · intro p hp
          obtain ⟨row, hrow, column, hcolumn, rfl⟩ := mem_rowStores.mp hp
          refine ⟨_, ?_, rfl⟩
          rw [TypedUniform.elementSize, Nat.mul_comm info.columns]
          exact offset_lt hcolumn hrow
      · cases h
        exact componentsAt_fit (elementSize_pos info)
    | number x | boolean b | texture t | other => rw [hvalue] at h; cases h

/-! ## How a send ends -/

open Shader

theorem allOrNothing_ok {s t : Shader} (ht : ∀ name ≠ info.name, t.data name = s.data name) :
    AllOrNothing info s (.ok () t) where
  defined := fun u h => by cases h
  others := ht
  unchanged := fun message u h => by cases h

theorem allOrNothing_refused {s : Shader} {message : String} :
    AllOrNothing info s (.error (.raised message) s) where
  defined := fun u h => by cases h
  others := fun name hname => rfl
  unchanged := fun m u h => by
    cases h
    exact ⟨rfl, rfl, rfl, rfl, rfl⟩

theorem withData_other {s : Shader} {data : List UniformWord} {name : String}
    (hname : name ≠ info.name) : (s.withData info.name data).data name = s.data name := if_neg hname

/-- A shader with one uniform. -/
def holding (info : TypedUniform) (data : Option (List UniformWord)) (current : Bool) : Shader where
  allUniforms := [info]
  data := fun name => if name = info.name then data else none
  pendingUniformUpdates := []
  glUniforms := fun _ => []
  activeTextures := fun _ => none
  textureUnits := fun _ => none
  isCurrent := current

theorem holding_data (data : Option (List UniformWord)) (current : Bool) :
    (holding info data current).data info.name = data := if_pos rfl

theorem holding_known (data : Option (List UniformWord)) (current : Bool) :
    (holding info data current).getUniformInfo info.name = some info :=
  find?_cons_of_pos (decide_eq_true rfl)

theorem linked_none (current : Bool) : Linked info false current (holding info none current) where
  known := holding_known _ _
  inactive := fun _ => holding_data _ _
  allocated := fun h => by cases h
  isCurrent := rfl

theorem linked_some {data : List UniformWord} (h : data.length = info.packedSize) (current : Bool) :
    Linked info true current (holding info (some data) current) where
  known := holding_known _ _
  inactive := fun h => by cases h
  allocated := fun _ => ⟨data, holding_data _ _, h⟩
  isCurrent := rfl

section Numbers

variable {e : Elements} (hfits : Fits info args e) {linear : Bool}
include hfits

theorem range_eq_cons : ∃ rest, List.range e.n = 0 :: rest := by
  cases hn : e.n with
  | zero =>
    have hpos := hfits.pos
    omega
  | succ n => exact ⟨_, range_succ_eq_map⟩

theorem gather_none : (gather e.element (List.range e.n)).2 = none ↔
    ∀ i < sendCount args.length info, ¬ WrongKind info args i := by
  rw [gather_none_iff, ← hfits.others]
  simp only [mem_range]

theorem gather_begins (hfirst : ¬ WrongKind info args 0) :
    ∃ word, (0, word) ∈ (gather e.element (List.range e.n)).1 := by
  obtain ⟨rest, hrange⟩ := range_eq_cons hfits
  rw [hrange]
  cases h0 : e.element 0 with
  | error message => exact absurd (hfits.first.mp ⟨message, h0⟩) hfirst
  | ok stores =>
    obtain ⟨word, hword⟩ := hfits.begins stores h0
    rw [gather_ok h0]
    exact ⟨word, mem_append_left _ hword⟩

theorem sendElements_linked {s : Shader} {data : List UniformWord}
    (hdata : s.data info.name = some data) (hlength : data.length = info.packedSize) :
    sendElements info e.element (List.range e.n) s =
      match (gather e.element (List.range e.n)).2 with
      | none => .ok () (s.withData info.name (putAll (gather e.element (List.range e.n)).1 data))
      | some message => .error (.raised message)
        (s.withData info.name (putAll (gather e.element (List.range e.n)).1 data)) := by
  refine sendElements_some hdata fun i hi stores h p hp => ?_
  rw [hlength]
  exact hfits.within i (mem_range.mp hi) stores h p hp

theorem exists_written (hfirst : ¬ WrongKind info args 0)
    {f : List UniformWord → List UniformWord}
    (hf : ∀ data data' : List UniformWord, data.length = data'.length → data[0]? = data'[0]? →
      (f data)[0]? = (f data')[0]?) :
    ∃ data : List UniformWord, data.length = info.packedSize ∧
      f (putAll (gather e.element (List.range e.n)).1 data) ≠ data := by
  obtain ⟨word, hword⟩ := gather_begins hfits hfirst
  refine exists_changed (Nat.mul_pos (elementSize_pos info) info.count_pos) ?_
  intro data data' hd hd'
  have hlength : data.length = data'.length := hd.trans hd'.symm
  refine hf _ _ ?_ (putAll_stored hlength hword)
  rw [putAll_length, putAll_length, hlength]

/-- What the data are when all elements are stored. -/
def finished (host : Host Number) (info : TypedUniform) (e : Elements) (linear : Bool)
    (data : List UniformWord) : List UniformWord :=
  if linear = true then
    linearAll host (gammaComponents info e.n)
      (putAll (gather e.element (List.range e.n)).1 data)
  else putAll (gather e.element (List.range e.n)).1 data

omit hfits in
theorem finished_length (data : List UniformWord) :
    (finished host info e linear data).length = data.length := by
  rw [finished]
  split_ifs
  · rw [linearAll_length, putAll_length]
  · exact putAll_length _ _

omit hfits in
theorem gammaComponents_lt {n k : Nat} (hn : n ≤ info.count) (hk : k ∈ gammaComponents info n) :
    k < info.packedSize := by
  rw [gammaComponents, mem_flatMap] at hk
  obtain ⟨i, hi, hk⟩ := hk
  rw [mem_map] at hk
  obtain ⟨j, hj, rfl⟩ := hk
  rw [mem_range] at hi hj
  have hrow : j < info.rows := lt_of_lt_of_le hj (min_le_left _ _)
  refine lt_of_lt_of_le (offset_lt (lt_of_lt_of_le hi hn) hrow) ?_
  exact Nat.mul_le_mul_right _ (Nat.le_mul_of_pos_left _ info.columns_le.1)

theorem sendNumbers_update {s : Shader} {data : List UniformWord}
    (hdata : s.data info.name = some data) (hlength : data.length = info.packedSize)
    (hright : ∀ i < sendCount args.length info, ¬ WrongKind info args i) :
    sendNumbers host info e linear s =
      updateUniform host info e.n (s.withData info.name (finished host info e linear data)) := by
  have hsent := sendElements_linked hfits hdata hlength
  rw [(gather_none hfits).mpr hright] at hsent
  rw [sendNumbers, bind_ok hsent, finished]
  split_ifs with hlinear
  · rw [bind_ok (linearize_some host (withData_data ..) fun k hk => ?_), withData_withData]
    rw [putAll_length, hlength]
    exact gammaComponents_lt hfits.le hk
  · rfl

theorem sendNumbers_wrong {s : Shader} {data : List UniformWord}
    (hdata : s.data info.name = some data) (hlength : data.length = info.packedSize)
    {message : String} (hwrong : (gather e.element (List.range e.n)).2 = some message) :
    sendNumbers host info e linear s = .error (.raised message)
      (s.withData info.name (putAll (gather e.element (List.range e.n)).1 data)) := by
  have hsent := sendElements_linked hfits hdata hlength
  rw [hwrong] at hsent
  rw [sendNumbers, bind_error hsent]

theorem sendNumbers_first {s : Shader} (hfirst : WrongKind info args 0) :
    ∃ message, sendNumbers host info e linear s = .error (.raised message) s := by
  obtain ⟨rest, hrange⟩ := range_eq_cons hfits
  obtain ⟨message, h0⟩ := hfits.first.mpr hfirst
  refine ⟨message, ?_⟩
  rw [sendNumbers, hrange, bind_error (sendElements_error h0)]

theorem sendNumbers_inactive {s : Shader} (hdata : s.data info.name = none)
    (hfirst : ¬ WrongKind info args 0) :
    sendNumbers host info e linear s = .error .undefined s := by
  obtain ⟨rest, hrange⟩ := range_eq_cons hfits
  cases h0 : e.element 0 with
  | error message => exact absurd (hfits.first.mp ⟨message, h0⟩) hfirst
  | ok stores =>
    obtain ⟨word, hword⟩ := hfits.begins stores h0
    rw [sendNumbers, hrange,
      bind_error (sendElements_none hdata h0 (ne_nil_of_mem hword))]

theorem sendNumbers_ok {s : Shader} {data : List UniformWord}
    (hdata : s.data info.name = some data) (hlength : data.length = info.packedSize)
    (hright : ∀ i < sendCount args.length info, ¬ WrongKind info args i)
    (hflush : s.isCurrent = true → host.flushBatchedDraws = .ok ()) :
    AllOrNothing info s (sendNumbers host info e linear s) := by
  rw [sendNumbers_update hfits hdata hlength hright]
  cases hcurrent : s.isCurrent with
  | false =>
    rw [updateUniform_pending (show (s.withData info.name _).isCurrent = false from hcurrent)]
    exact allOrNothing_ok fun name hname => withData_other hname
  | true =>
    have hcount : e.n * info.elementSize ≤ (finished host info e linear data).length := by
      rw [finished_length, hlength, TypedUniform.packedSize, Nat.mul_comm]
      exact Nat.mul_le_mul_left _ hfits.le
    obtain ⟨words, hwords⟩ := updateUniform_current
      (show (s.withData info.name (finished host info e linear data)).isCurrent = true
        from hcurrent) (withData_data ..) (hflush hcurrent) hcount
    rw [hwords]
    exact allOrNothing_ok fun name hname => withData_other hname

theorem sendNumbers_iff {active current : Bool} :
    (∀ s, Linked info active current s → AllOrNothing info s (sendNumbers host info e linear s)) ↔
      NumbersOrderly info args host active current := by
  by_cases hfirst : WrongKind info args 0
  · refine iff_of_true (fun s _ => ?_) (.inl hfirst)
    obtain ⟨message, h⟩ := @sendNumbers_first Number host info args e hfits linear s hfirst
    rw [h]
    exact allOrNothing_refused
  rw [NumbersOrderly, or_iff_right hfirst]
  cases active with
  | false =>
    refine iff_of_false (fun h => ?_) fun h => absurd h.2.1 (by decide)
    -- what is stored is stored nowhere
    have hsend := h _ (linked_none current)
    rw [sendNumbers_inactive hfits (holding_data _ _) hfirst] at hsend
    exact hsend.defined _ rfl
  | true =>
    constructor
    · intro h
      have hright : ∀ i < sendCount args.length info, ¬ WrongKind info args i := by
        rw [← gather_none hfits]
        cases hgather : (gather e.element (.range e.n)).2 with
        | none => rfl
        | some message =>
          -- the elements before it are stored, and stay
          obtain ⟨data, hlength, hchanged⟩ :=
            exists_written hfits hfirst (fun _ _ _ hzero => hzero)
          have hsend := h _ (linked_some hlength current)
          rw [sendNumbers_wrong hfits (holding_data _ _) hlength hgather] at hsend
          have hkept := congrFun (hsend.unchanged _ _ rfl).data info.name
          rw [withData_data, holding_data] at hkept
          exact absurd (Option.some.inj hkept) hchanged
      refine ⟨hright, rfl, fun hcurrent => ?_⟩
      cases hflush : host.flushBatchedDraws with
      | ok u => rfl
      | error message =>
        -- so are all elements, when the draws before cannot be flushed
        obtain ⟨data, hlength, hchanged⟩ :=
          @exists_written Number info args e hfits hfirst
            (fun data => if linear = true then
              linearAll host (gammaComponents info e.n) data else data)
            (fun data data' hsame hzero => by
              split_ifs
              · exact linearAll_congr host hsame _ hzero
              · exact hzero)
        have hsend := h _ (linked_some hlength current)
        rw [sendNumbers_update hfits (holding_data _ _) hlength hright,
          updateUniform_failed hcurrent hflush] at hsend
        have hkept := congrFun (hsend.unchanged _ _ rfl).data info.name
        rw [withData_data, holding_data] at hkept
        exact absurd (Option.some.inj hkept) hchanged
    · rintro ⟨hright, -, hflush⟩ s hlinked
      obtain ⟨data, hdata, hlength⟩ := hlinked.allocated rfl
      exact sendNumbers_ok hfits hdata hlength hright fun h => hflush (hlinked.isCurrent ▸ h)

end Numbers

/-! ## Textures -/

theorem isTexture_iff {value : Value Number} :
    isTexture value = true ↔ ∃ t, value = .texture t := by
  cases value with
  | texture t => exact iff_of_true rfl ⟨t, rfl⟩
  | table length get | number x | boolean b | transform elements | other =>
    exact iff_of_false (fun h => by cases h) fun ⟨t, h⟩ => by cases h

theorem checkTextures_ok {values : List (Value Number)} {s : Shader}
    (h : ∀ value ∈ values, isTexture value = true) :
    ∃ textures, checkTextures values s = .ok textures s ∧
      values = textures.map Value.texture := by
  induction values with
  | nil => exact ⟨[], rfl, rfl⟩
  | cons value rest ih =>
    rw [forall_mem_cons] at h
    obtain ⟨t, rfl⟩ := isTexture_iff.mp h.1
    obtain ⟨textures, hrest, rfl⟩ := ih h.2
    refine ⟨t :: textures, ?_, rfl⟩
    rw [checkTextures, bind_ok hrest]
    rfl

theorem checkTextures_wrong {values : List (Value Number)} {s : Shader}
    (h : ∃ value ∈ values, isTexture value = false) :
    ∃ message, checkTextures values s = .error (.raised message) s := by
  induction values with
  | nil =>
    obtain ⟨value, hmem, -⟩ := h
    exact absurd hmem not_mem_nil
  | cons value rest ih =>
    cases value with
    | texture t =>
      obtain ⟨value, hmem, hwrong⟩ := h
      rcases mem_cons.mp hmem with rfl | hmem
      · cases hwrong
      · obtain ⟨message, hrest⟩ := ih ⟨value, hmem, hwrong⟩
        refine ⟨message, ?_⟩
        rw [checkTextures, bind_error hrest]
    | table length get | number x | boolean b | transform elements | other => exact ⟨_, rfl⟩

theorem bind_modify (f : Shader → Shader) (k : PUnit → SendM Unit) (s : Shader) :
    ((modify f : SendM PUnit) >>= k) s = k ⟨⟩ (f s) := rfl

theorem applyTextures_cons {texture : Nat} {rest : List Nat} {i : Nat} {s : Shader}
    {data : List UniformWord} (hdata : s.data info.name = some data) (hi : i < data.length)
    (hvalid : host.validateTexture info texture = .ok ()) :
    ∃ u, applyTextures host info i (texture :: rest) s = applyTextures host info (i + 1) rest u ∧
      u.data = s.data ∧ ∀ k, u.activeTextures k =
        if k = info.resourceIndex + i then some texture else s.activeTextures k := by
  rw [applyTextures, hvalid]
  dsimp only
  obtain ⟨u, hu⟩ : ∃ u : Shader, u = { s with
    activeTextures := fun k =>
      if k = info.resourceIndex + i then some texture else s.activeTextures k } := ⟨_, rfl⟩
  have hload : load info i u = .ok data[i] u := load_some (by rw [hu, hdata]) hi
  rw [bind_modify, ← hu, bind_ok hload, bind_modify, hu]
  exact ⟨_, rfl, rfl, fun _ => rfl⟩

theorem applyTextures_ok {textures : List Nat} {i : Nat} {s : Shader} {data : List UniformWord}
    (hdata : s.data info.name = some data) (hin : i + textures.length ≤ data.length)
    (hvalid : ∀ t ∈ textures, host.validateTexture info t = .ok ()) :
    ∃ u, applyTextures host info i textures s = .ok () u ∧ u.data = s.data := by
  induction textures generalizing i s with
  | nil => exact ⟨s, rfl, rfl⟩
  | cons texture rest ih =>
    rw [length_cons] at hin
    rw [forall_mem_cons] at hvalid
    have hi : i < data.length := by omega
    obtain ⟨u, hrun, hu, -⟩ := @applyTextures_cons Number host info texture rest i s data hdata hi
      hvalid.1
    obtain ⟨v, hrest, hv⟩ := ih (i := i + 1) (hu ▸ hdata) (by omega) hvalid.2
    exact ⟨v, hrun.trans hrest, hv.trans hu⟩

theorem applyTextures_raised {textures : List Nat} {i : Nat} {s : Shader}
    {data : List UniformWord} (hdata : s.data info.name = some data)
    (hin : i + textures.length ≤ data.length)
    (hrefused : ∃ t ∈ textures, host.validateTexture info t ≠ .ok ()) :
    ∃ message u, applyTextures host info i textures s = .error (.raised message) u ∧
      ∀ k < info.resourceIndex + i, u.activeTextures k = s.activeTextures k := by
  induction textures generalizing i s with
  | nil =>
    obtain ⟨t, ht, -⟩ := hrefused
    exact absurd ht not_mem_nil
  | cons texture rest ih =>
    rw [length_cons] at hin
    cases hvalid : host.validateTexture info texture with
    | error message => exact ⟨message, s, by rw [applyTextures, hvalid]; rfl, fun _ _ => rfl⟩
    | ok _ =>
      have hi : i < data.length := by omega
      obtain ⟨u, hrun, hu, hbound⟩ := @applyTextures_cons Number host info texture rest i s data
        hdata hi hvalid
      have hrest : ∃ t ∈ rest, host.validateTexture info t ≠ .ok () := by
        obtain ⟨t, ht, hne⟩ := hrefused
        rcases mem_cons.mp ht with rfl | ht
        · exact absurd hvalid hne
        · exact ⟨t, ht, hne⟩
      obtain ⟨message, v, hraised, hkept⟩ := ih (i := i + 1) (hu ▸ hdata) (by omega) hrest
      refine ⟨message, v, hrun.trans hraised, fun k hk => ?_⟩
      rw [hkept k (by omega), hbound, if_neg (by omega)]

theorem applyTextures_none {texture : Nat} {rest : List Nat} {s : Shader}
    (hdata : s.data info.name = none) (hvalid : host.validateTexture info texture = .ok ()) :
    ∃ t, applyTextures host info 0 (texture :: rest) s = .error .undefined t := by
  rw [applyTextures, hvalid]
  dsimp only
  rw [bind_modify]
  refine ⟨_, bind_error (load_none ?_ 0)⟩
  exact hdata

theorem applyTextures_refused {texture : Nat} {rest : List Nat} {s : Shader} {message : String}
    (hvalid : host.validateTexture info texture = .error message) :
    applyTextures host info 0 (texture :: rest) s = .error (.raised message) s := by
  rw [applyTextures, hvalid]
  rfl

theorem argument_eq {i : Nat} (hi : i < args.length) : argument args i = args[i] := by
  rw [argument, getD_eq_getElem?_getD, getElem?_eq_getElem hi, Option.getD_some]

theorem exists_take_iff {P : Value Number → Prop} {n : Nat} (hn : n ≤ args.length) :
    (∃ value ∈ args.take n, P value) ↔ ∃ i < n, P (argument args i) := by
  constructor
  · rintro ⟨value, hmem, h⟩
    obtain ⟨i, hi, rfl⟩ := mem_take_iff_getElem.mp hmem
    have hi := lt_min_iff.mp hi
    refine ⟨i, hi.1, ?_⟩
    rwa [argument_eq hi.2]
  · rintro ⟨i, hi, h⟩
    have hlt := lt_of_lt_of_le hi hn
    rw [argument_eq hlt] at h
    exact ⟨args[i], mem_take_iff_getElem.mpr ⟨i, lt_min hi hlt, rfl⟩, h⟩

theorem sendCount_le : sendCount args.length info ≤ args.length := min_le_left _ _

section Textures

variable (htype : info.baseType = .sampler ∨ info.baseType = .storageTexture)
include htype

theorem wrongKind_texture (i : Nat) :
    WrongKind info args i ↔ isTexture (argument args i) = false := by
  rw [WrongKind]
  rcases htype with h | h <;> rw [h]

theorem taken_wrong_iff :
    (∃ value ∈ args.take (sendCount args.length info), isTexture value = false) ↔
      ∃ i < sendCount args.length info, WrongKind info args i := by
  rw [@exists_take_iff Number args (fun value => isTexture value = false) _ sendCount_le]
  exact exists_congr fun i => and_congr_right' (wrongKind_texture htype i).symm

theorem sendTextures_checked (hargs : args ≠ [])
    (hright : ¬ ∃ i < sendCount args.length info, WrongKind info args i) (s : Shader) :
    ∃ t rest, argument args 0 = .texture t ∧
      (t :: rest).length = sendCount args.length info ∧
      (∀ x, x ∈ t :: rest ↔ ∃ i < sendCount args.length info, argument args i = .texture x) ∧
      sendTextures host info args s =
        (do
          if s.isCurrent = true then
            flush host
          applyTextures host info 0 (t :: rest) : SendM Unit) s := by
  rw [← taken_wrong_iff htype] at hright
  obtain ⟨textures, hchecked, htaken⟩ :=
    @checkTextures_ok Number (args.take (sendCount args.length info)) s fun value hvalue =>
      eq_true_of_ne_false fun h => hright ⟨value, hvalue, h⟩
  have hlength : textures.length = sendCount args.length info := by
    have h := congrArg List.length htaken
    rw [length_map, length_take] at h
    rw [← h]
    exact min_eq_left sendCount_le
  have hmem : ∀ x, x ∈ textures ↔
      ∃ i < sendCount args.length info, argument args i = .texture x := by
    intro x
    rw [← @exists_take_iff Number args (fun value => value = .texture x) _ sendCount_le, htaken]
    simp only [mem_map, exists_exists_and_eq_and, Value.texture.injEq, exists_eq_right]
  have hpos := @sendCount_pos Number info args hargs
  cases textures with
  | nil =>
    rw [length_nil] at hlength
    omega
  | cons t rest =>
    refine ⟨t, rest, ?_, hlength, hmem, ?_⟩
    · have hlt : 0 < args.length := length_pos_iff.mpr hargs
      have h : (args.take (sendCount args.length info))[0]? = _ := congrArg (·[0]?) htaken
      rw [getElem?_take_of_lt hpos, getElem?_eq_getElem hlt] at h
      rw [argument_eq hlt]
      exact Option.some.inj h
    · rw [sendTextures, bind_ok hchecked]
      rfl

theorem sendTextures_iff (hargs : args ≠ []) {active current : Bool} :
    (∀ s, Linked info active current s → AllOrNothing info s (sendTextures host info args s)) ↔
      TexturesOrderly info args host active current := by
  by_cases hwrong : ∃ i < sendCount args.length info, WrongKind info args i
  · refine iff_of_true (fun s _ => ?_) (.inl hwrong)
    obtain ⟨message, h⟩ := @checkTextures_wrong Number _ s ((taken_wrong_iff htype).mpr hwrong)
    rw [sendTextures, bind_error h]
    exact allOrNothing_refused
  rw [TexturesOrderly, or_iff_right hwrong]
  have hsend := @sendTextures_checked Number host info args htype hargs hwrong
  by_cases hstopped : current = true ∧ host.flushBatchedDraws ≠ .ok ()
  · refine iff_of_true (fun s hlinked => ?_) (.inl hstopped)
    obtain ⟨t, rest, -, -, -, hrun⟩ := hsend s
    rw [hrun, if_pos (hlinked.isCurrent.trans hstopped.1)]
    cases hflush : host.flushBatchedDraws with
    | ok _ => exact absurd hflush hstopped.2
    | error message =>
      rw [bind_error (flush_error hflush)]
      exact allOrNothing_refused
  rw [or_iff_right hstopped]
  -- it comes to the textures, one by one
  have hreached : ∀ s, s.isCurrent = current → ∃ t rest, argument args 0 = .texture t ∧
      (t :: rest).length = sendCount args.length info ∧
      (∀ x, x ∈ t :: rest ↔ ∃ i < sendCount args.length info, argument args i = .texture x) ∧
      sendTextures host info args s = applyTextures host info 0 (t :: rest) s := by
    intro s hcurrent
    obtain ⟨t, rest, hfirst, hlength, hmem, hrun⟩ := hsend s
    refine ⟨t, rest, hfirst, hlength, hmem, hrun.trans ?_⟩
    split_ifs with h
    · have hflush : host.flushBatchedDraws = .ok () := by
        by_contra hne
        exact hstopped ⟨hcurrent.symm.trans h, hne⟩
      rw [bind_ok (flush_ok hflush)]
    · rfl
  have hin : ∀ {t rest} {data : List UniformWord}, data.length = info.packedSize →
      (t :: rest : List Nat).length = sendCount args.length info →
      0 + (t :: rest).length ≤ data.length := by
    intro t rest data hsize hlength
    rw [Nat.zero_add, hlength, hsize]
    exact (min_le_right _ _).trans (Nat.le_mul_of_pos_left _ (elementSize_pos info))
  constructor
  · intro h
    by_cases hrefused : ∃ t, argument args 0 = .texture t ∧ host.validateTexture info t ≠ .ok ()
    · exact .inl hrefused
    right
    cases active with
    | false =>
      obtain ⟨t, rest, hfirst, -, -, hrun⟩ := hreached (holding info none current) rfl
      have hvalid : host.validateTexture info t = .ok () := by
        by_contra hne
        exact hrefused ⟨t, hfirst, hne⟩
      have hsound := h _ (linked_none current)
      obtain ⟨u, hundefined⟩ := @applyTextures_none Number host info t rest
        (holding info none current) (holding_data _ _) hvalid
      rw [hrun, hundefined] at hsound
      exact absurd rfl (hsound.defined u)
    | true =>
      refine ⟨rfl, ?_⟩
      by_contra hnot
      push Not at hnot
      obtain ⟨i, hi, x, hx, hne⟩ := hnot
      obtain ⟨data, hsize⟩ : ∃ data : List UniformWord, data.length = info.packedSize :=
        ⟨replicate info.packedSize 0, length_replicate⟩
      obtain ⟨t, rest, hfirst, hlength, hmem, hrun⟩ :=
        hreached (holding info (some data) current) rfl
      have hvalid : host.validateTexture info t = .ok () := by
        by_contra hne
        exact hrefused ⟨t, hfirst, hne⟩
      have hrest : ∃ y ∈ rest, host.validateTexture info y ≠ .ok () := by
        rcases mem_cons.mp ((hmem x).mpr ⟨i, hi, hx⟩) with rfl | hmem
        · exact absurd hvalid hne
        · exact ⟨x, hmem, hne⟩
      have hroom := hin hsize hlength
      rw [length_cons] at hroom
      -- the first texture is bound when the other is refused
      obtain ⟨u, hfirstRun, hu, hbound⟩ := @applyTextures_cons Number host info t rest 0
        (holding info (some data) current) data (holding_data _ _) (by omega) hvalid
      obtain ⟨message, v, hraised, hkept⟩ := @applyTextures_raised Number host info rest (0 + 1) u
        data (by rw [hu, holding_data]) (by omega) hrest
      have hsound := h _ (linked_some hsize current)
      rw [hrun, hfirstRun, hraised] at hsound
      have hsame := congrFun (hsound.unchanged _ _ rfl).textures info.resourceIndex
      rw [hkept _ (by omega), hbound, if_pos (Nat.add_zero _).symm] at hsame
      cases hsame
  · rintro h s hlinked
    obtain ⟨t, rest, hfirst, hlength, hmem, hrun⟩ := hreached s hlinked.isCurrent
    rw [hrun]
    rcases h with ⟨x, hx, hne⟩ | ⟨hactive, hvalid⟩
    · rw [hfirst] at hx
      cases hx
      cases hrefused : host.validateTexture info t with
      | ok _ => exact absurd hrefused hne
      | error message =>
        rw [applyTextures_refused hrefused]
        exact allOrNothing_refused
    · obtain ⟨data, hdata, hsize⟩ := hlinked.allocated hactive
      obtain ⟨u, hu, hsame⟩ := applyTextures_ok hdata (hin hsize hlength) fun x hx => by
        obtain ⟨i, hi, hx⟩ := (hmem x).mp hx
        exact hvalid i hi x hx
      rw [hu]
      exact allOrNothing_ok fun name _ => by rw [hsame]

end Textures

end Elements

/-! ## `send` and `sendColor` -/

section Send

variable {Number : Type} (host : Host Number) (info : TypedUniform) (args : List (Value Number))

/-- Of whatever shader has the uniform. -/
def Sound (colors active current : Bool) : Prop :=
  ∀ s, Linked info active current s →
    AllOrNothing info s (Shader.sendTo host info.name args colors s)

theorem sendTo_known {s : Shader} (hknown : s.getUniformInfo info.name = some info)
    (colors : Bool) :
    Shader.sendTo host info.name args colors s =
      (if args = [] then
        throw (.raised ("Shader uniform '" ++ info.name ++ "' needs a value"))
      else Shader.sendByType host info info.name args colors : SendM Unit) s := by
  rw [Shader.sendTo, Program.bind_ok (rfl : (get : SendM Shader) s = .ok s s), hknown]

theorem sendByType_iff (hargs : args ≠ []) (colors active current : Bool) :
    (∀ s, Linked info active current s →
      AllOrNothing info s (Shader.sendByType host info info.name args colors s)) ↔
      Orderly info args host active current := by
  refine .trans ?_ (forall_prop_of_true hargs).symm
  cases htype : info.baseType with
  | float =>
    rw [Shader.sendByType, htype]
    exact sendNumbers_iff (fits_numbers hargs (.inl htype) _ _)
  | matrix =>
    rw [Shader.sendByType, htype]
    exact sendNumbers_iff (fits_matrices hargs htype)
  | int =>
    rw [Shader.sendByType, htype]
    rw [Shader.sendInts, if_neg (by rw [htype]; decide)]
    exact sendNumbers_iff (fits_numbers hargs (.inr (.inl htype)) _ _)
  | uint =>
    rw [Shader.sendByType, htype]
    rw [Shader.sendInts, if_pos htype]
    exact sendNumbers_iff (fits_numbers hargs (.inr (.inr htype)) _ _)
  | bool =>
    rw [Shader.sendByType, htype]
    exact sendNumbers_iff (fits_booleans hargs htype)
  | sampler =>
    rw [Shader.sendByType, htype]
    exact sendTextures_iff (.inl htype) hargs
  | storageTexture =>
    rw [Shader.sendByType, htype]
    exact sendTextures_iff (.inr htype) hargs
  | texelBuffer =>
    rw [Shader.sendByType, htype]
    exact iff_of_true (fun s _ => allOrNothing_refused) trivial
  | storageBuffer =>
    rw [Shader.sendByType, htype]
    exact iff_of_true (fun s _ => allOrNothing_refused) trivial
  | unknown =>
    rw [Shader.sendByType, htype]
    exact iff_of_true (fun s _ => allOrNothing_refused) trivial

/-- **When sends are all or nothing, and in bounds.** -/
theorem sendTo_sound_iff (colors active current : Bool) :
    Sound host info args colors active current ↔ Orderly info args host active current := by
  by_cases hargs : args = []
  · refine iff_of_true (fun s hlinked => ?_) fun h => absurd hargs h
    rw [sendTo_known host info args hlinked.known, if_pos hargs]
    exact allOrNothing_refused
  · rw [← sendByType_iff host info args hargs colors]
    refine forall_congr' fun s => forall_congr' fun hlinked => ?_
    rw [sendTo_known host info args hlinked.known, if_neg hargs]

end Send

/-! ## A value behind the first -/

/-- Numbers are their own words. -/
def plain : Host Nat where
  zero := 0
  toFloat := BitVec.ofNat 32
  toInt := BitVec.ofNat 32
  toUint := BitVec.ofNat 32
  floatToInt := id
  floatToUint := id
  gammaToLinear := id
  gammaCorrect := false
  flushBatchedDraws := .ok ()
  validateTexture := fun _ _ => .ok ()

/-- `uniform vec2 positions[2]` -/
def positions : TypedUniform where
  name := "positions"
  shape := .vector 2
  isArray := true
  count := 2
  valid := ⟨by decide, by decide⟩
  count_pos := by decide
  count_lt := by decide
  single := fun h => absurd h (by decide)
  baseType := .float
  resourceIndex := 0
  matrix_iff := by decide

/-- The second of the values is no table; the first is in the data by then. -/
theorem not_sound_positions :
    ¬ Sound plain positions [.table 2 fun i => .number i, .boolean true] false true false := by
  intro h
  have hsend := h _ (@linked_some positions [0, 0, 0, 0] (by decide) false)
  have hdata := congrFun (hsend.unchanged _ _ rfl).data "positions"
  exact absurd hdata (by decide)

end Lhatove.Graphics.ShaderSend
