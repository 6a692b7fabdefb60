import Lhatove.Filesystem.NativeFile

/-!
# Reading a whole file

`love::filesystem::File::read`, for the files that there are: `NativeFile` and
`physfs::File`. What the libraries below answer is given; a sum of `int64` that overflows
has no result.

- `read_undone_iff`: which failures leave nothing behind.
-/

namespace Lhatove.Filesystem

/-- `File::Mode` -/
inductive Mode
  | closed
  | read
  | write
  | append
  deriving DecidableEq

/-- A `File`, with the position of its handle, if there is one. -/
structure File where
  filename : String
  mode : Mode
  position : Nat
  deriving DecidableEq

/-- What is answered during a call of `read`. -/
structure ReadAnswers where
  /-- `open(MODE_READ)`, of a file that is closed -/
  opened : Except String Bool
  /-- `getSize` -/
  size : Int
  /-- `tell` does not fail. -/
  tells : Bool
  /-- There is memory for so many bytes. -/
  room : Nat → Bool
  /-- There is memory for the second `FileData`. -/
  secondRoom : Bool
  /-- The library's read, unless it fails. -/
  data : Option (List Byte)
  /-- The library closes the handle. -/
  closes : Bool

/-- What happens to an object. -/
inductive DataEvent
  | new (object : Nat)
  | retain (object : Nat)
  | release (object : Nat)
  | delete (object : Nat)
  deriving DecidableEq

/-- What comes of a call of `read`: the bytes of the `FileData` or an exception's message,
the file, and what happened to the `FileData`s. -/
structure ReadOutcome where
  result : Except String (List Byte)
  file : File
  events : List DataEvent

/-- `SIZE_ALL` -/
def sizeAll : Int := -1

namespace File

def isOpen (f : File) : Bool := f.mode ≠ .closed

section Read

variable (a : ReadAnswers)

def tell (f : File) : Int := if f.isOpen ∧ a.tells then f.position else -1

/-- `read(dst, size)`, with the bytes that are written to `dst`. -/
def readBytes (f : File) (size : Int) : Except String (Int × List Byte × File) :=
  if f.mode ≠ .read then .error "File is not opened for reading."
  else if size < 0 then .error "Invalid read size."
  else
    match a.data with
    | none => .ok (-1, [], f)
    | some data =>
      let data := data.take size.toNat
      .ok (data.length, data, { f with position := f.position + data.length })

def close (f : File) : File := if a.closes then { f with mode := .closed, position := 0 } else f

/-- The position, clamped. -/
def clampedPosition (f : File) : Int :=
  let cur := f.tell a
  if cur < 0 then 0 else if a.size < cur then a.size else cur

/-- How many bytes are read, unless the size is not valid. -/
def readSize (f : File) (size : Int) : Option Int :=
  let size := if size = sizeAll then a.size else size
  let cur := f.clampedPosition a
  if ¬ IsInt64 (cur + size) then none
  else some (if a.size < cur + size then a.size - cur else size)

/-- `read` from where there is a `FileData`, the object 0. The exceptions release it as they
leave its `StrongRef`. -/
def readData (f : File) (size : Int) (wasOpen : Bool) : ReadOutcome :=
  match f.readBytes a size with
  | .error message => ⟨.error message, f, [.new 0, .release 0]⟩
  | .ok (bytesRead, data, f) =>
    let left := if wasOpen then f else f.close a
    if bytesRead < 0 ∨ bytesRead = 0 ∧ bytesRead ≠ size then
      ⟨.error "Could not read from file.", f, [.new 0, .delete 0, .release 0]⟩
    else if bytesRead < size then
      if a.secondRoom then
        ⟨.ok data, left,
          [.new 0, .new 1, .retain 1, .release 0, .release 1, .retain 1, .release 1]⟩
      else ⟨.error "Out of memory.", f, [.new 0, .release 0]⟩
    else ⟨.ok data, left, [.new 0, .retain 0, .release 0]⟩

/-- `read` from where the file is open. -/
def readOpen (f : File) (size : Int) (wasOpen : Bool) : Option ReadOutcome :=
  if size ≠ sizeAll ∧ size < 0 then some ⟨.error "Invalid read size.", f, []⟩
  else
    (f.readSize a size).map fun size =>
      if a.room (size % 2 ^ 64).toNat then f.readData a size wasOpen
      else ⟨.error "Out of memory.", f, []⟩

/-- `read(size)` -/
def read (f : File) (size : Int) : Option ReadOutcome :=
  if f.isOpen then f.readOpen a size true
  else
    match a.opened with
    | .error message => some ⟨.error message, f, []⟩
    | .ok false => some ⟨.error ("Could not read file " ++ f.filename ++ "."), f, []⟩
    | .ok true => readOpen a { f with mode := .read, position := 0 } size false

end Read

end File

/-! ## What is left behind -/

/-- How often an object has been released for each time it was retained. -/
def releases (events : List DataEvent) (object : Nat) : Int :=
  events.count (.release object) + events.count (.delete object) - events.count (.retain object)

/-- The file is as it was, and what was allocated has been released once. -/
def Undone (f : File) (o : ReadOutcome) : Prop :=
  o.file = f ∧ ∀ object, .new object ∈ o.events → releases o.events object = 1

section Failures

variable {a : ReadAnswers} {f : File} {size : Int} {o : ReadOutcome} {message : String}

/-- Of an open file nothing is read: the size is not valid, or it has become negative as the
size of the file is not known, there is no memory, or the file is not open for reading. -/
def NothingRead (a : ReadAnswers) (f : File) (size : Int) : Prop :=
  (size ≠ sizeAll ∧ size < 0) ∨ f.mode ≠ .read ∨
    ∀ n, f.readSize a size = some n → n < 0 ∨ a.room (n % 2 ^ 64).toNat = false

/-- The failure comes before anything is done that is not undone: the file is closed and
cannot be opened, or it is open and nothing is read. -/
def Harmless (a : ReadAnswers) (f : File) (size : Int) : Prop :=
  if f.isOpen then NothingRead a f size else a.opened ≠ .ok true

theorem File.readBytes_spec (hread : f.mode = .read) {n : Int} (hn : 0 ≤ n) :
    f.readBytes a n = .ok (-1, [], f) ∨
      ∃ data : List Byte, f.readBytes a n =
        .ok (data.length, data, { f with position := f.position + data.length }) := by
  rw [File.readBytes, if_neg (not_not.mpr hread), if_neg (not_lt.mpr hn)]
  cases a.data with
  | none => exact .inl rfl
  | some data => exact .inr ⟨_, rfl⟩

theorem undone_nil : Undone f ⟨.error message, f, []⟩ := by
  refine ⟨rfl, ?_⟩
  intro object h
  cases h

theorem undone_released : Undone f ⟨.error message, f, [.new 0, .release 0]⟩ := by
  refine ⟨rfl, ?_⟩
  intro object h
  have hobject : object = 0 := by simpa using h
  subst hobject
  show releases [.new 0, .release 0] 0 = 1
  decide

theorem not_undone_deleted {f' : File} :
    ¬ Undone f ⟨.error message, f', [.new 0, .delete 0, .release 0]⟩ := by
  rintro ⟨-, h⟩
  have htwice : releases [.new 0, .delete 0, .release 0] 0 = 1 := h 0 List.mem_cons_self
  exact absurd htwice (by decide)

theorem not_undone_moved {f' : File} {events : List DataEvent} (h : f'.position ≠ f.position) :
    ¬ Undone f ⟨.error message, f', events⟩ := by
  rintro ⟨rfl, -⟩
  exact h rfl

theorem readData_failed {n : Int} {wasOpen : Bool}
    (hfail : (f.readData a n wasOpen).result = .error message) :
    (f.readData a n wasOpen).file.mode = f.mode ∧
      (Undone f (f.readData a n wasOpen) ↔ f.mode ≠ .read ∨ n < 0) := by
  by_cases hnothing : f.mode ≠ .read ∨ n < 0
  · rw [iff_true_right hnothing, File.readData]
    have hthrows : ∃ m, f.readBytes a n = .error m := by
      rw [File.readBytes]
      split_ifs with hmode hneg
      · exact ⟨_, rfl⟩
      · exact ⟨_, rfl⟩
      · exact absurd hnothing (by simp [hmode, hneg])
    obtain ⟨m, hm⟩ := hthrows
    rw [hm]
    exact ⟨rfl, undone_released⟩
  · rw [iff_false_right hnothing]
    push Not at hnothing
    rw [File.readData] at hfail ⊢
    rcases File.readBytes_spec hnothing.1 hnothing.2 with hread | ⟨data, hread⟩
    · rw [hread] at hfail ⊢
      exact ⟨rfl, not_undone_deleted⟩
    · rw [hread] at hfail ⊢
      dsimp only at hfail ⊢
      split_ifs at hfail ⊢ with hnone hshort hroom
      · exact ⟨rfl, not_undone_deleted⟩
      · -- the bytes that were read are lost
        cases hfail
        refine ⟨rfl, not_undone_moved ?_⟩
        dsimp only
        omega

theorem readOpen_failed {wasOpen : Bool} (h : f.readOpen a size wasOpen = some o)
    (hfail : o.result = .error message) :
    o.file.mode = f.mode ∧ (Undone f o ↔ NothingRead a f size) := by
  rw [File.readOpen] at h
  split_ifs at h with hinvalid
  · cases h
    exact ⟨rfl, iff_of_true undone_nil (.inl hinvalid)⟩
  · obtain ⟨n, hn, rfl⟩ := Option.map_eq_some_iff.mp h
    have hnothing : NothingRead a f size ↔
        f.mode ≠ .read ∨ n < 0 ∨ a.room (n % 2 ^ 64).toNat = false := by
      rw [NothingRead, or_iff_right hinvalid]
      refine or_congr_right ⟨fun hall => hall n hn, ?_⟩
      intro hone n' hn'
      cases hn.symm.trans hn'
      exact hone
    rw [hnothing]
    by_cases hroom : a.room (n % 2 ^ 64).toNat = true
    · rw [if_pos hroom] at hfail ⊢
      obtain ⟨hmode, hundone⟩ := readData_failed hfail
      rw [hroom]
      refine ⟨hmode, hundone.trans ?_⟩
      simp
    · rw [if_neg hroom]
      exact ⟨rfl, iff_of_true undone_nil (.inr (.inr (Bool.not_eq_true _ ▸ hroom)))⟩

/-- A failed read leaves nothing behind exactly if it fails before there is anything to
undo, or within an open file before its bytes are read: a file that was opened for it stays
open, and where the library's read fails the `FileData` is deleted and then released. -/
theorem read_undone_iff (h : f.read a size = some o) (hfail : o.result = .error message) :
    Undone f o ↔ Harmless a f size := by
  rw [Harmless]
  rw [File.read] at h
  by_cases hopen : f.isOpen = true
  · rw [if_pos hopen] at h ⊢
    exact (readOpen_failed h hfail).2
  · rw [if_neg hopen] at h ⊢
    have hclosed : f.mode = .closed := by simpa [File.isOpen] using hopen
    cases hopened : a.opened with
    | error m =>
      rw [hopened] at h
      cases h
      exact iff_of_true undone_nil (by simp)
    | ok opens =>
      rw [hopened] at h
      cases opens with
      | false =>
        cases h
        exact iff_of_true undone_nil (by simp)
      | true =>
        -- it stays open
        have hmode := (readOpen_failed h hfail).1
        refine iff_of_false ?_ (by simp)
        rintro ⟨rfl, -⟩
        cases hmode.symm.trans hclosed

/-- A file that is open for writing is left alone. -/
theorem read_undone_iff_writing :
    Undone ⟨"save.txt", .write, 4⟩ ⟨.error "File is not opened for reading.",
      ⟨"save.txt", .write, 4⟩, [.new 0, .release 0]⟩ ↔
    Harmless ⟨.ok true, 4, true, fun _ => true, true, none, true⟩ ⟨"save.txt", .write, 4⟩ sizeAll :=
  read_undone_iff rfl rfl

/-- Where the library's read fails the `FileData` is released twice, and a file that was
closed is left open. -/
theorem not_undone_failed : ¬ ∀ (a : ReadAnswers) (f : File) (size : Int) (o : ReadOutcome)
    (message : String), f.read a size = some o → o.result = .error message → Undone f o := by
  intro h
  have hundone := h ⟨.ok true, 4, true, fun _ => true, true, none, true⟩
    ⟨"save.txt", .closed, 0⟩ sizeAll _ _ rfl rfl
  exact not_undone_deleted hundone

end Failures

end Lhatove.Filesystem
