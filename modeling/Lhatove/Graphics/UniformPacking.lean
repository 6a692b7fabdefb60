import Lhatove.Lib.Cells

/-!
# Uniforms in a uniform buffer

`Shader::copyToUniformBuffer`: the tightly packed values of a uniform become what std140
says. The values are packed one column of a matrix behind the other, as the bindings
write them and `glUniformMatrix` reads them.
-/

namespace Lhatove.Graphics

/-- Four bytes of a uniform. -/
abbrev UniformWord := BitVec 32

/-- What one element of a uniform is: `components`, or the two sizes of `MatrixSize`. -/
inductive UniformShape where
  | vector (components : Nat)
  | matrix (columns rows : Nat)
  deriving DecidableEq

/-- The shapes that GLSL has. -/
def UniformShape.Valid : UniformShape → Prop
  | .vector components => 1 ≤ components ∧ components ≤ 4
  | .matrix columns rows => 2 ≤ columns ∧ columns ≤ 4 ∧ 2 ≤ rows ∧ rows ≤ 4

/-- `UniformInfo`. Only an array has more than one element; the `count` is an `int`. -/
structure UniformInfo where
  name : String
  shape : UniformShape
  isArray : Bool
  count : Nat
  valid : shape.Valid
  count_pos : 0 < count
  count_lt : count < 2 ^ 31
  single : isArray = false → count = 1

namespace UniformInfo

/-- A vector is one column. -/
def columns (u : UniformInfo) : Nat :=
  match u.shape with
  | .vector _ => 1
  | .matrix columns _ => columns

def rows (u : UniformInfo) : Nat :=
  match u.shape with
  | .vector components => components
  | .matrix _ rows => rows

/-- `baseType == UNIFORM_MATRIX` -/
def isMatrix (u : UniformInfo) : Bool :=
  match u.shape with
  | .vector _ => false
  | .matrix _ _ => true

/-- The size that the uniform has in a uniform buffer, in bytes: std140 starts each
column of a matrix and each element of an array at four words. -/
def dataSizeAllocated (u : UniformInfo) : Nat :=
  if u.isMatrix = true ∨ u.isArray = true then 16 * u.columns * u.count else 4 * u.rows

/-- The words of an array of `count` matrices, or vectors, one behind the other. -/
def component (u : UniformInfo) (data : Nat → UniformWord) (e j r : Nat) : UniformWord :=
  data ((e * u.columns + j) * u.rows + r)

/-- `memcpy` of words -/
def memcpyWords (src dst : Nat → UniformWord) (n : Nat) : Nat → UniformWord := fun word =>
  if word < n then src word else dst word

/-- The stores of the two loops, in their order. -/
def paddedStores (src : Nat → UniformWord) (veccount comp : Nat) : List (Nat × UniformWord) :=
  (List.range veccount).flatMap fun i =>
    (List.range comp).map fun c => (i * 4 + c, src (i * comp + c))

/-- `copyToUniformBuffer`; `none` where a number leaves the `int` that it is computed in. -/
def copyToUniformBuffer (u : UniformInfo) (src dst : Nat → UniformWord) (count : Nat) :
    Option (Nat → UniformWord) :=
  let count := min count u.count
  let elementsize := u.columns * u.rows * 4
  if elementsize * u.count = u.dataSizeAllocated ∨ (count = 1 ∧ u.isMatrix = false) then
    some (memcpyWords src dst (u.columns * u.rows * count))
  else
    let veccount := if u.isMatrix = true then count * u.rows else count
    let comp := if u.isMatrix = true then u.columns else u.rows
    if 2 ^ 31 ≤ veccount ∨ (0 < veccount ∧ 2 ^ 31 ≤ (veccount - 1) * 4 + comp - 1) then
      none
    else
      some (storeAll dst (paddedStores src veccount comp))

/-! ## The layout -/

/-- std140: the columns lie four words apart, one element behind the other. -/
structure Std140 (u : UniformInfo) (count : Nat) (src dst after : Nat → UniformWord) : Prop where
  written : ∀ e < count, ∀ j < u.columns, ∀ r < u.rows,
    after (4 * (e * u.columns + j) + r) = u.component src e j r
  kept : ∀ word, (∀ e < count, ∀ j < u.columns, ∀ r < u.rows,
    word ≠ 4 * (e * u.columns + j) + r) → after word = dst word

/-- Whatever is copied over whatever there was. -/
def Packs (u : UniformInfo) (count : Nat) : Prop :=
  ∀ src dst, ∃ after, u.copyToUniformBuffer src dst count = some after ∧
    u.Std140 (min count u.count) src dst after

theorem rows_le (u : UniformInfo) : 1 ≤ u.rows ∧ u.rows ≤ 4 := by
  have hvalid := u.valid
  rw [rows]
  cases hshape : u.shape with
  | vector components =>
    rw [hshape] at hvalid
    exact hvalid
  | matrix columns rows =>
    rw [hshape] at hvalid
    obtain ⟨-, -, hlow, hhigh⟩ := hvalid
    exact ⟨(by omega : 1 ≤ rows), hhigh⟩

theorem columns_le (u : UniformInfo) : 1 ≤ u.columns ∧ u.columns ≤ 4 := by
  have hvalid := u.valid
  rw [columns]
  cases hshape : u.shape with
  | vector components => exact ⟨le_rfl, (by norm_num : 1 ≤ 4)⟩
  | matrix columns rows =>
    rw [hshape] at hvalid
    obtain ⟨hlow, hhigh, -⟩ := hvalid
    exact ⟨(by omega : 1 ≤ columns), hhigh⟩

variable {u : UniformInfo}

theorem columns_of_vector (h : u.isMatrix = false) : u.columns = 1 := by
  rw [isMatrix] at h
  rw [columns]
  cases hshape : u.shape with
  | vector components => rfl
  | matrix columns rows => simp [hshape] at h

theorem word_div_mod {e j r : Nat} (hr : r < u.rows) :
    (4 * (e * u.columns + j) + r) / 4 = e * u.columns + j ∧
      (4 * (e * u.columns + j) + r) % 4 = r := by
  have hrows := u.rows_le
  omega

variable {count : Nat}

theorem column_lt {e j : Nat} (he : e < count) (hj : j < u.columns) :
    e * u.columns + j < count * u.columns := by
  calc e * u.columns + j < e * u.columns + u.columns := by omega
    _ = (e + 1) * u.columns := by ring
    _ ≤ count * u.columns := Nat.mul_le_mul_right _ he

theorem exists_column {k : Nat} (hk : k < count * u.columns) :
    ∃ e < count, ∃ j < u.columns, k = e * u.columns + j := by
  have hpos := u.columns_le
  refine ⟨k / u.columns, ?_, k % u.columns, Nat.mod_lt _ (by omega), ?_⟩
  · exact Nat.div_lt_of_lt_mul (by rwa [Nat.mul_comm])
  · exact (Nat.div_add_mod' k u.columns).symm

theorem std140_iff (u : UniformInfo) (count : Nat) (src dst after : Nat → UniformWord) :
    u.Std140 count src dst after ↔ ∀ word, after word =
      if word % 4 < u.rows ∧ word / 4 < count * u.columns then src (word / 4 * u.rows + word % 4)
      else dst word := by
  constructor
  · intro h word
    split_ifs with hin
    · obtain ⟨e, he, j, hj, hword⟩ := exists_column hin.2
      have hwritten := h.written e he j hj (word % 4) hin.1
      rw [← hword, Nat.div_add_mod] at hwritten
      rw [hwritten, component, ← hword]
    · refine h.kept word ?_
      rintro e he j hj r hr rfl
      have hdiv := word_div_mod (e := e) (j := j) hr
      rw [hdiv.1, hdiv.2] at hin
      exact hin ⟨hr, column_lt he hj⟩
  · intro h
    constructor
    · intro e he j hj r hr
      have hdiv := word_div_mod (e := e) (j := j) hr
      rw [h, hdiv.1, hdiv.2, if_pos ⟨hr, column_lt he hj⟩, component]
    · intro word hout
      rw [h, if_neg]
      rintro ⟨hr, hk⟩
      obtain ⟨e, he, j, hj, hword⟩ := exists_column hk
      exact hout e he j hj _ hr (by rw [← hword, Nat.div_add_mod])

/-! ## The two ways to copy -/

theorem mem_paddedStores {src : Nat → UniformWord} {veccount comp : Nat} {s : Nat × UniformWord} :
    s ∈ paddedStores src veccount comp ↔
      ∃ i < veccount, ∃ c < comp, s = (i * 4 + c, src (i * comp + c)) := by
  simp only [paddedStores, List.mem_flatMap, List.mem_map, List.mem_range, eq_comm]

theorem storeAll_padded (src dst : Nat → UniformWord) {veccount comp : Nat} (hcomp : comp ≤ 4)
    (word : Nat) :
    storeAll dst (paddedStores src veccount comp) word =
      if word % 4 < comp ∧ word / 4 < veccount then src (word / 4 * comp + word % 4)
      else dst word := by
  split_ifs with hin
  · apply storeAll_stored
    · refine ⟨_, mem_paddedStores.mpr ⟨word / 4, hin.2, word % 4, hin.1, rfl⟩, ?_⟩
      omega
    · intro s hs haddress
      obtain ⟨i, hi, c, hc, rfl⟩ := mem_paddedStores.mp hs
      have hdiv : word / 4 = i ∧ word % 4 = c := by omega
      rw [hdiv.1, hdiv.2]
  · apply storeAll_kept
    intro s hs haddress
    obtain ⟨i, hi, c, hc, rfl⟩ := mem_paddedStores.mp hs
    exact hin ⟨by omega, by omega⟩

theorem std140_memcpy_four (hrows : u.rows = 4) (src dst : Nat → UniformWord) (count : Nat) :
    u.Std140 count src dst (memcpyWords src dst (u.columns * u.rows * count)) := by
  rw [std140_iff]
  intro word
  have hsize : u.columns * u.rows * count = 4 * (count * u.columns) := by
    rw [hrows]
    ring
  rw [memcpyWords, hsize, hrows]
  split
  · rw [if_pos ⟨by omega, by omega⟩, show word / 4 * 4 + word % 4 = word by omega]
  next hword =>
    rw [if_neg fun h => hword (by omega)]

theorem std140_memcpy_one (hcolumns : u.columns = 1) (src dst : Nat → UniformWord) :
    u.Std140 1 src dst (memcpyWords src dst (u.columns * u.rows * 1)) := by
  rw [std140_iff]
  intro word
  have hrows := u.rows_le
  rw [memcpyWords, hcolumns, Nat.one_mul, Nat.mul_one]
  split
  · rw [if_pos ⟨by omega, by omega⟩]
    congr 1
    rw [show word / 4 = 0 by omega]
    omega
  next hword =>
    rw [if_neg fun h => hword (by omega)]

theorem std140_zero (src dst : Nat → UniformWord) : u.Std140 0 src dst dst :=
  ⟨fun _ he => absurd he (Nat.not_lt_zero _), fun _ _ => rfl⟩

/-- When all is copied as it is. -/
def CopiesWhole (u : UniformInfo) (count : Nat) : Prop :=
  u.columns * u.rows * 4 * u.count = u.dataSizeAllocated ∨ (count = 1 ∧ u.isMatrix = false)

theorem std140_of_copiesWhole (hcount : count ≤ u.count) (h : u.CopiesWhole count)
    (src dst : Nat → UniformWord) :
    u.Std140 count src dst (memcpyWords src dst (u.columns * u.rows * count)) := by
  rcases h with hsize | ⟨rfl, hmatrix⟩
  · have hpos := u.count_pos
    have hcolumns := u.columns_le
    rw [dataSizeAllocated] at hsize
    split_ifs at hsize with hpadded
    · -- four words a column
      apply std140_memcpy_four
      have hfactor : u.rows * (4 * (u.columns * u.count)) = 4 * (4 * (u.columns * u.count)) := by
        calc u.rows * (4 * (u.columns * u.count)) = u.columns * u.rows * 4 * u.count := by ring
          _ = 16 * u.columns * u.count := hsize
          _ = 4 * (4 * (u.columns * u.count)) := by ring
      have hpos : 0 < 4 * (u.columns * u.count) :=
        Nat.mul_pos (by norm_num) (Nat.mul_pos hcolumns.1 hpos)
      exact Nat.eq_of_mul_eq_mul_right hpos hfactor
    · have hmatrix : u.isMatrix = false := Bool.eq_false_iff.mpr fun h => hpadded (.inl h)
      have hone := u.single (Bool.eq_false_iff.mpr fun h => hpadded (.inr h))
      rcases Nat.lt_or_ge count 1 with hzero | hgreater
      · obtain rfl : count = 0 := by omega
        exact std140_zero src dst
      · obtain rfl : count = 1 := by omega
        exact std140_memcpy_one (columns_of_vector hmatrix) src dst
  · exact std140_memcpy_one (columns_of_vector hmatrix) src dst

/-! ## What the values are -/

/-- The values of a matrix that a script passes: a `Transform`, a table of rows, a table of
numbers, or something else. -/
inductive MatrixArgument where
  | transform (elements : Nat → UniformWord)
  | rows (lines : List (List UniformWord))
  | flat (numbers : List UniformWord)
  | other

/-- The number of a matrix in a row and a column. -/
def entry (u : UniformInfo) (r j : Nat) : MatrixArgument → UniformWord
  | .transform elements => elements (4 * j + r)
  | .rows lines => (lines.getD r []).getD j 0
  | .flat numbers => numbers.getD (j * u.rows + r) 0
  | .other => 0

/-- What `sendMatrices` stores for the argument `i`. -/
def matrixStores (u : UniformInfo) (i : Nat) : MatrixArgument → Option (List (Nat × UniformWord))
  | .transform elements =>
    if u.columns = 4 ∧ u.rows = 4 then
      some ((List.range 16).map fun k => (i * 16 + k, elements k))
    else
      none
  | .rows lines =>
    some ((List.range u.rows).flatMap fun row => (List.range u.columns).map fun column =>
      (i * (u.columns * u.rows) + column * u.rows + row, (lines.getD row []).getD column 0))
  | .flat numbers =>
    some ((List.range (u.columns * u.rows)).map fun k =>
      (i * (u.columns * u.rows) + k, numbers.getD k 0))
  | .other => none

/-- The loop of `sendMatrices`, from the argument `i` on. -/
def sendMatricesFrom (u : UniformInfo) (i : Nat) (values : Nat → UniformWord) :
    List MatrixArgument → Except String (Nat → UniformWord)
  | [] => .ok values
  | argument :: rest =>
    match u.matrixStores i argument with
    | none => .error ("Shader uniform '" ++ u.name ++ "' needs a table per matrix")
    | some stores => u.sendMatricesFrom (i + 1) (storeAll values stores) rest

/-- `sendMatrices`: the values it has ready for `updateUniform`. -/
def sendMatrices (u : UniformInfo) (values : Nat → UniformWord) (args : List MatrixArgument) :
    Except String (Nat → UniformWord) :=
  u.sendMatricesFrom 0 values (args.take u.count)

theorem matrixStores_spec {i : Nat} {argument : MatrixArgument} {stores : List (Nat × UniformWord)}
    (h : u.matrixStores i argument = some stores) :
    (∀ j < u.columns, ∀ r < u.rows, ∃ s ∈ stores, s.1 = (i * u.columns + j) * u.rows + r) ∧
      ∀ s ∈ stores, ∃ j < u.columns, ∃ r < u.rows,
        s = ((i * u.columns + j) * u.rows + r, u.entry r j argument) := by
  -- the words of an element are its columns, one behind the other
  have hsplit : ∀ k < u.columns * u.rows,
      k / u.rows < u.columns ∧ k % u.rows < u.rows ∧ k / u.rows * u.rows + k % u.rows = k := by
    intro k hk
    have hpos := u.rows_le
    exact ⟨Nat.div_lt_of_lt_mul (by rwa [Nat.mul_comm]), Nat.mod_lt _ (by omega),
      Nat.div_add_mod' k u.rows⟩
  have hjoin : ∀ j < u.columns, ∀ r < u.rows, j * u.rows + r < u.columns * u.rows := by
    intro j hj r hr
    calc j * u.rows + r < j * u.rows + u.rows := by omega
      _ = (j + 1) * u.rows := by ring
      _ ≤ u.columns * u.rows := Nat.mul_le_mul_right _ hj
  have haddress : ∀ j r, i * (u.columns * u.rows) + (j * u.rows + r) =
      (i * u.columns + j) * u.rows + r := by
    intro j r
    ring
  cases argument with
  | transform elements =>
    rw [matrixStores] at h
    split_ifs at h with hfour
    cases h
    constructor
    · intro j hj r hr
      refine ⟨(i * 16 + (4 * j + r), elements (4 * j + r)),
        List.mem_map.mpr ⟨4 * j + r, List.mem_range.mpr (by omega), rfl⟩, ?_⟩
      rw [hfour.1, hfour.2]
      ring
    · intro s hs
      obtain ⟨k, hk, rfl⟩ := List.mem_map.mp hs
      have hk := List.mem_range.mp hk
      refine ⟨k / 4, by omega, k % 4, by omega, ?_⟩
      rw [entry, Nat.div_add_mod, hfour.1, hfour.2]
      congr 1
      omega
  | rows lines =>
    cases h
    constructor
    · intro j hj r hr
      refine ⟨_, List.mem_flatMap.mpr ⟨r, List.mem_range.mpr hr,
        List.mem_map.mpr ⟨j, List.mem_range.mpr hj, rfl⟩⟩, ?_⟩
      exact (Nat.add_assoc ..).trans (haddress j r)
    · intro s hs
      obtain ⟨r, hr, hs⟩ := List.mem_flatMap.mp hs
      obtain ⟨j, hj, rfl⟩ := List.mem_map.mp hs
      refine ⟨j, List.mem_range.mp hj, r, List.mem_range.mp hr, ?_⟩
      rw [Nat.add_assoc, haddress, entry]
  | flat numbers =>
    cases h
    constructor
    · intro j hj r hr
      refine ⟨_, List.mem_map.mpr ⟨j * u.rows + r, List.mem_range.mpr (hjoin j hj r hr), rfl⟩, ?_⟩
      exact haddress j r
    · intro s hs
      obtain ⟨k, hk, rfl⟩ := List.mem_map.mp hs
      obtain ⟨hj, hr, hk⟩ := hsplit k (List.mem_range.mp hk)
      refine ⟨k / u.rows, hj, k % u.rows, hr, ?_⟩
      rw [← haddress, hk, entry, hk]
  | other => cases h

/-- The words before those of an argument are as they were, those of the argument its entries. -/
theorem sendMatricesFrom_spec {args : List MatrixArgument} {i : Nat}
    {values after : Nat → UniformWord} (h : u.sendMatricesFrom i values args = .ok after) :
    (∀ word < i * u.columns * u.rows, after word = values word) ∧
      ∀ e (he : e < args.length), ∀ j < u.columns, ∀ r < u.rows,
        u.component after (i + e) j r = u.entry r j args[e] := by
  induction args generalizing i values with
  | nil =>
    cases h
    exact ⟨fun _ _ => rfl, fun e he => absurd he (Nat.not_lt_zero e)⟩
  | cons argument rest ih =>
    rw [sendMatricesFrom] at h
    split at h
    · cases h
    next stores hstores =>
      obtain ⟨hbefore, hrest⟩ := ih h
      obtain ⟨hall, hentries⟩ := matrixStores_spec hstores
      have hbelow : ∀ j < u.columns, ∀ r < u.rows,
          (i * u.columns + j) * u.rows + r < (i + 1) * u.columns * u.rows := by
        intro j hj r hr
        calc (i * u.columns + j) * u.rows + r < (i * u.columns + j) * u.rows + u.rows := by omega
          _ = (i * u.columns + j + 1) * u.rows := by ring
          _ ≤ ((i + 1) * u.columns) * u.rows :=
            Nat.mul_le_mul_right _ (by rw [Nat.add_one_mul]; omega)
      constructor
      · intro word hword
        have hnext : i * u.columns * u.rows ≤ (i + 1) * u.columns * u.rows :=
          Nat.mul_le_mul_right _ (Nat.mul_le_mul_right _ (Nat.le_succ i))
        rw [hbefore word (by omega)]
        refine storeAll_kept fun s hs haddress => ?_
        obtain ⟨j, hj, r, hr, rfl⟩ := hentries s hs
        have hle : i * u.columns * u.rows ≤ (i * u.columns + j) * u.rows :=
          Nat.mul_le_mul_right _ (Nat.le_add_right ..)
        omega
      · intro e he j hj r hr
        cases e with
        | zero =>
          rw [Nat.add_zero, component, hbefore _ (hbelow j hj r hr)]
          refine storeAll_stored (hall j hj r hr) ?_
          intro s hs haddress
          obtain ⟨j', hj', r', hr', rfl⟩ := hentries s hs
          -- the same word is the same row of the same column
          have hrow : r' = r := by
            have hmod := congrArg (· % u.rows) haddress
            simpa only [Nat.mul_add_mod_self_right, Nat.mod_eq_of_lt hr, Nat.mod_eq_of_lt hr'] using
              hmod
          have hcolumn : j' = j := by
            rw [hrow] at haddress
            have hmul := Nat.eq_of_mul_eq_mul_right (by omega : 0 < u.rows)
              (Nat.add_right_cancel haddress)
            omega
          rw [hrow, hcolumn]
          rfl
        | succ e =>
          have hlater := hrest e (by simpa using he) j hj r hr
          rw [show i + (e + 1) = i + 1 + e by omega]
          exact hlater

/-- `updateUniform` of the opengl backend: the sizes of the matrices of the function it calls,
`glUniformMatrix2fv`, .., `glUniformMatrix4x3fv`. -/
def uniformMatrixSize (columns rows : Nat) : Option (Nat × Nat) :=
  if columns = 2 ∧ rows = 2 then some (2, 2)
  else if columns = 3 ∧ rows = 3 then some (3, 3)
  else if columns = 4 ∧ rows = 4 then some (4, 4)
  else if columns = 2 ∧ rows = 3 then some (2, 3)
  else if columns = 2 ∧ rows = 4 then some (2, 4)
  else if columns = 3 ∧ rows = 2 then some (3, 2)
  else if columns = 3 ∧ rows = 4 then some (3, 4)
  else if columns = 4 ∧ rows = 2 then some (4, 2)
  else if columns = 4 ∧ rows = 3 then some (4, 3)
  else none

/-- What such a function takes as row `r` of column `j` of matrix `e`, without transposing. -/
def glUniformMatrix (size : Nat × Nat) (data : Nat → UniformWord) (e j r : Nat) : UniformWord :=
  data (e * (size.1 * size.2) + j * size.2 + r)

theorem glUniformMatrix_component (hmatrix : u.isMatrix = true) :
    ∃ size, uniformMatrixSize u.columns u.rows = some size ∧ ∀ data e j r,
      glUniformMatrix size data e j r = u.component data e j r := by
  have hvalid := u.valid
  rw [isMatrix] at hmatrix
  have hsize : uniformMatrixSize u.columns u.rows = some (u.columns, u.rows) := by
    rw [columns, rows]
    cases hshape : u.shape with
    | vector components => simp [hshape] at hmatrix
    | matrix columns rows =>
      rw [hshape] at hvalid
      obtain ⟨hc, hc', hr, hr'⟩ := hvalid
      interval_cases columns <;> interval_cases rows <;> rfl
  refine ⟨_, hsize, fun data e j r => ?_⟩
  rw [glUniformMatrix, component]
  congr 1
  ring

/-! ## When the copy is right -/

/-- Nothing is copied, or all as it is, or the columns one by one: then a matrix has as many
columns as rows, and the last word has an `int` for its index. -/
def PacksExactly (u : UniformInfo) (count : Nat) : Prop :=
  count = 0 ∨ u.CopiesWhole count ∨
    ((u.isMatrix = true → u.columns = u.rows) ∧
      4 * (count * u.columns - 1) + u.rows - 1 < 2 ^ 31)

theorem packs_iff (u : UniformInfo) (count : Nat) :
    u.Packs count ↔ u.PacksExactly (min count u.count) := by
  have hle : min count u.count ≤ u.count := min_le_right ..
  generalize hn : min count u.count = n at hle
  have hrows := u.rows_le
  have hcolumns := u.columns_le
  by_cases hwhole : u.CopiesWhole n
  · refine iff_of_true ?_ (.inr (.inl hwhole))
    intro src dst
    refine ⟨memcpyWords src dst (u.columns * u.rows * n), ?_, ?_⟩
    · rw [copyToUniformBuffer, hn]
      exact if_pos hwhole
    · rw [hn]
      exact std140_of_copiesWhole hle hwhole src dst
  -- the loops
  have hcopy : ∀ src dst, u.copyToUniformBuffer src dst count =
      if 2 ^ 31 ≤ (if u.isMatrix = true then n * u.rows else n) ∨
          (0 < (if u.isMatrix = true then n * u.rows else n) ∧
            2 ^ 31 ≤ ((if u.isMatrix = true then n * u.rows else n) - 1) * 4 +
              (if u.isMatrix = true then u.columns else u.rows) - 1) then none
      else some (storeAll dst (paddedStores src (if u.isMatrix = true then n * u.rows else n)
        (if u.isMatrix = true then u.columns else u.rows))) := by
    intro src dst
    rw [copyToUniformBuffer, hn]
    exact if_neg hwhole
  by_cases hzero : n = 0
  · refine iff_of_true ?_ (.inl hzero)
    subst hzero
    intro src dst
    refine ⟨dst, ?_, by rw [hn]; exact std140_zero src dst⟩
    rw [hcopy]
    simp [paddedStores]
  by_cases hsquare : u.isMatrix = true → u.columns = u.rows
  · -- the columns as the loops see them
    have hvec : (if u.isMatrix = true then n * u.rows else n) = n * u.columns := by
      split_ifs with hmatrix
      · rw [hsquare hmatrix]
      · rw [columns_of_vector (Bool.eq_false_iff.mpr hmatrix), Nat.mul_one]
    have hcomp : (if u.isMatrix = true then u.columns else u.rows) = u.rows := by
      split_ifs with hmatrix
      · exact hsquare hmatrix
      · rfl
    rw [hvec, hcomp] at hcopy
    have hint : ¬ (2 ^ 31 ≤ n * u.columns ∨
        (0 < n * u.columns ∧ 2 ^ 31 ≤ (n * u.columns - 1) * 4 + u.rows - 1)) ↔
          4 * (n * u.columns - 1) + u.rows - 1 < 2 ^ 31 := by
      omega
    by_cases hlast : 4 * (n * u.columns - 1) + u.rows - 1 < 2 ^ 31
    · refine iff_of_true ?_ (.inr (.inr ⟨hsquare, hlast⟩))
      intro src dst
      refine ⟨_, (hcopy src dst).trans (if_neg (hint.mpr hlast)), ?_⟩
      rw [hn, std140_iff]
      exact storeAll_padded src dst hrows.2
    · refine iff_of_false ?_ ?_
      · intro h
        obtain ⟨after, hafter, -⟩ := h (fun _ => 0) (fun _ => 0)
        rw [hcopy, if_pos (not_not.mp (mt hint.mp hlast))] at hafter
        cases hafter
      · rintro (h | h | ⟨-, h⟩)
        · exact hzero h
        · exact hwhole h
        · exact hlast h
  · have hmatrix : u.isMatrix = true := by
      by_contra hvector
      exact hsquare fun h => absurd h hvector
    have hne : u.columns ≠ u.rows := fun h => hsquare fun _ => h
    refine iff_of_false ?_ ?_
    · -- the first column gets as many words as the matrix has columns
      intro h
      obtain ⟨after, hafter, hstd⟩ := h (fun _ => 1) (fun _ => 0)
      rw [hn, std140_iff] at hstd
      rw [hcopy, if_pos hmatrix, if_pos hmatrix] at hafter
      split_ifs at hafter
      cases hafter
      have hword := hstd (min u.columns u.rows)
      rw [storeAll_padded _ _ hcolumns.2] at hword
      have hnpos := Nat.pos_of_ne_zero hzero
      have hvecpos : 0 < n * u.rows := Nat.mul_pos hnpos hrows.1
      have hcolpos : 0 < n * u.columns := Nat.mul_pos hnpos hcolumns.1
      have hdiv : min u.columns u.rows / 4 = 0 := by omega
      have hmod : min u.columns u.rows % 4 = min u.columns u.rows := by omega
      rcases Nat.lt_or_gt_of_ne hne with hlt | hgt
      · rw [if_neg (by omega), if_pos (by omega)] at hword
        exact absurd hword (by decide)
      · rw [if_pos (by omega), if_neg (by omega)] at hword
        exact absurd hword (by decide)
    · rintro (h | h | ⟨h, -⟩)
      · exact hzero h
      · exact hwhole h
      · exact hsquare h

/-- The copy follows std140 exactly under `PacksExactly`, from the values in the order in which
the bindings store matrices and OpenGL reads them. -/
theorem copyToUniformBuffer_std140_iff (u : UniformInfo) (count : Nat) :
    (u.Packs count ↔ u.PacksExactly (min count u.count)) ∧
      (∀ values args after, u.sendMatrices values args = .ok after →
        ∀ e (he : e < (args.take u.count).length), ∀ j < u.columns, ∀ r < u.rows,
          u.component after e j r = u.entry r j (args.take u.count)[e]) ∧
      (u.isMatrix = true → ∃ size, uniformMatrixSize u.columns u.rows = some size ∧
        ∀ data e j r, glUniformMatrix size data e j r = u.component data e j r) := by
  refine ⟨u.packs_iff count, ?_, glUniformMatrix_component⟩
  intro values args after h e he j hj r hr
  have hspec := (sendMatricesFrom_spec h).2 e he j hj r hr
  rwa [Nat.zero_add] at hspec

theorem twoByThree_valid : (UniformShape.matrix 2 3).Valid := by
  refine ⟨?_, ?_, ?_, ?_⟩ <;> norm_num

/-- `uniform mat2x3 name` -/
def twoByThree : UniformInfo :=
  ⟨"name", .matrix 2 3, false, 1, twoByThree_valid, by decide, by decide, fun _ => rfl⟩

/-- The third row of a matrix of two columns and three rows is lost. -/
theorem not_packs_twoByThree : ¬ twoByThree.Packs 1 := by
  intro h
  obtain ⟨after, hafter, hstd⟩ := h (fun _ => 1) (fun _ => 0)
  cases hafter
  exact absurd (hstd.written 0 (by decide) 0 (by decide) 2 (by decide)) (by decide)

end UniformInfo

end Lhatove.Graphics
