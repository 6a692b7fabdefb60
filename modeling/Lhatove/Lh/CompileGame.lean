import Lhatove.Lib.Walks
import Lhatove.Lh.Disks

/-!
# Compiling a game ahead

`compileGame` writes the units that a game reached under a directory, with the paths they
had, and copies the other files of the game there. What it reports is thrown; it reads through
what is mounted, and writes to the disk.

- `checkAllUnits`, `writeUnits`, `writeLton`, `copyRest`, `compileGame`;
- `Faithful`: it ends, and leaves a copy where it reports nothing;
- `Does` and `Ends` for each of its steps.
-/

namespace Lhatove.Lh

open LoopM

/-- What `lhat_program_check` makes of a unit. -/
inductive Checked where
  | unreadable
  | refused
  | ok
  deriving DecidableEq, Repr

/-- A unit of the program: its path, and what `lhat_unit_write_binary` makes of it. -/
structure ProgramUnit where
  path : Option Path
  binary : Option Bytes
  deriving Repr

/-- The program that the game is, and its loader. -/
structure Program where
  /-- `Loader::isHeld` -/
  isHeld : Path → Bool
  check : Path → Checked
  compiles : Bool
  units : List ProgramUnit
  /-- `lhatstdlib_lton_write`, or why there is nothing to write -/
  ltonWrite : Bytes → Except String Bytes

/-- Where a game is compiled: `game` is what `setSource` mounted, and `behind` is mounted
behind it, as the save directory is; `dest` is the directory that it is compiled to. -/
structure Site where
  os : Os
  game : Path
  behind : List Path
  program : Program
  dest : Path

def Site.mounts (e : Site) : List Path := e.game :: e.behind

/-- The disk, and how many files were copied so far. -/
structure Run where
  disk : Disk
  copied : Nat

def spell (path : Path) : String := "/".intercalate path

def confLton : Path := ["conf.lton"]

variable (e : Site)

/-! ## The model -/

def isDirectory (s : Run) (path : Path) : Option Bool :=
  (stat e.mounts s.disk path).map fun entry => decide (entry = .directory)

def items (s : Run) (dir : Path) : List String := getDirectoryItems e.mounts s.disk dir

def checkUnit (path : Path) : LoopM String Run Unit :=
  if (spell path).endsWith ".lh" then
    match e.program.check path with
    | .unreadable => throw ("Could not read " ++ spell path)
    | .refused =>
      throw (spell path ++ " did not check; a compiled game carries no unit that does not")
    | .ok => pure ()
  else pure ()

def unitWalk : Walk String Run String where
  items := items e
  isDirectory := isDirectory e
  enter _ := pure ()
  visit := checkUnit e

/-- Every unit that the game carries, whether or not the run reached it. -/
def checkAllUnits (dir : Path) : LoopM String Run Unit := (unitWalk e).walk dir

/-- `writeBytes`, and what is reported where it fails. -/
def write (path : Path) (bytes : Bytes) (trouble : String) : LoopM String Run Unit := do
  let s ← get
  set { s with disk := (writeBytes e.os s.disk path bytes).1 }
  if (writeBytes e.os s.disk path bytes).2 then pure () else throw trouble

def parents (unit : Path) : LoopM String Run Unit :=
  modify fun s => { s with disk := makeParents e.os s.disk e.dest unit }

/-- A file of the destination, with the directories that lead to it. -/
def putFile (unit : Path) (bytes : Bytes) (trouble : String) : LoopM String Run Unit := do
  parents e unit
  write e (e.dest ++ unit) bytes trouble

/-- The units that are not held, and which were written. -/
def writeUnits : List ProgramUnit → List Path → LoopM String Run (List Path)
  | [], written => pure written
  | u :: units, written =>
    match u.path with
    | none => writeUnits units written
    | some unit =>
      -- what the engine embeds travels with the engine
      if e.program.isHeld unit then writeUnits units written
      else match u.binary with
        | none => throw ("Could not compile " ++ spell unit)
        | some bytes => do
          putFile e unit bytes ("Could not write " ++ spell e.dest ++ "/" ++ spell unit)
          writeUnits units (written.insert unit)

def isFile (s : Run) (path : Path) : Bool := (isDirectory e s path) = some false

/-- The game's conf.lton goes through its own writer. -/
def writeLton (written : List Path) : LoopM String Run (List Path) := do
  let s ← get
  -- `Loader::exists`
  if e.program.isHeld confLton || isFile e s confLton then
    match stat e.mounts s.disk confLton with
    | some (.file data) =>
      match e.program.ltonWrite data with
      | .error why => throw ("conf.lton: " ++ why)
      | .ok bytes => do
        write e (e.dest ++ confLton) bytes ("Could not write " ++ spell e.dest ++ "/conf.lton")
        pure (written.insert confLton)
    -- reading it throws
    | _ => throw "Could not open file conf.lton. Does not exist."
  else pure written

def copyTrouble : String := "Could not copy the game's other files into " ++ spell e.dest

def copyFile (written : List Path) (path : Path) : LoopM String Run Unit :=
  if path ∈ written then pure ()
  else do
    let s ← get
    match stat e.mounts s.disk path with
    | some (.file data) => do
      putFile e path data (copyTrouble e)
      modify fun s => { s with copied := s.copied + 1 }
    | _ => throw ("Could not open file " ++ spell path ++ ". Does not exist.")

def restWalk (written : List Path) : Walk String Run String where
  items := items e
  isDirectory := isDirectory e
  enter path := parents e (path ++ ["x"])
  visit := copyFile e written

/-- Everything that the game carries and that was not written yet. -/
def copyRest (written : List Path) (dir : Path) : LoopM String Run Unit :=
  (restWalk e written).walk dir

/-- `lhat_program_compile` -/
def compileProgram : LoopM String Run Unit :=
  if e.program.compiles then pure () else throw "The game did not compile"

def printed (written : List Path) (s : Run) : String :=
  "wrote " ++ toString written.length ++ " compiled units and copied " ++ toString s.copied ++
    " other files to " ++ spell e.dest

/-- The value is what is printed. -/
def compileGame : LoopM String Run String := do
  modify fun s => { s with disk := mkdir e.os s.disk e.dest }
  checkAllUnits e []
  compileProgram e
  let units ← writeUnits e e.program.units []
  let written ← writeLton e units
  copyRest e written []
  return printed e written (← get)

/-! ## What it is for -/

/-- A file that goes out compiled. -/
def Compiled (program : Program) (path : Path) : Prop :=
  path = confLton ∨ ∃ u ∈ program.units, u.path = some path ∧ program.isHeld path = false

/-- Nothing changed but the destination. -/
def Outside (disk : Disk) (s : Run) : Prop :=
  ∀ path, ¬ e.dest <+: path → s.disk.entry path = disk.entry path

/-- Every file of the game that does not go out compiled is at the destination. -/
def Copied (disk : Disk) (s : Run) : Prop :=
  ∀ path bytes, path ≠ [] → disk.entry (e.game ++ path) = some (.file bytes) →
    ¬ Compiled e.program path → s.disk.entry (e.dest ++ path) = some (.file bytes)

/-- It ends, nothing but the destination was changed, and where nothing is reported the copy
is there. -/
def Faithful (disk : Disk) : Prop :=
  ∃ r s, (compileGame e).result ⟨disk, 0⟩ = some (r, s) ∧ Outside e disk s ∧
    ((∃ printed, r = .ok printed) → Copied e disk s)

/-! ## The steps end -/

variable {e}

theorem parents_ends (unit : Path) (s : Run) : (parents e unit).Ends s :=
  ends_of_result (result_modify _ s)

theorem write_ends (path : Path) (bytes : Bytes) (trouble : String) (s : Run) :
    (write e path bytes trouble).Ends s := by
  refine ends_get_bind.mpr (ends_bind (fun s => ends_of_result (result_set s _)) (fun _ s => ?_) s)
  split_ifs
  · exact ends_pure () s
  · exact ends_throw trouble s

theorem putFile_ends (unit : Path) (bytes : Bytes) (trouble : String) (s : Run) :
    (putFile e unit bytes trouble).Ends s :=
  ends_bind (parents_ends unit) (fun _ => write_ends _ bytes trouble) s

theorem checkUnit_ends (path : Path) (s : Run) : (checkUnit e path).Ends s := by
  unfold checkUnit
  split_ifs
  · rcases e.program.check path with _ | _ | _
    · exact ends_throw _ s
    · exact ends_throw _ s
    · exact ends_pure () s
  · exact ends_pure () s

theorem compileProgram_ends (s : Run) : (compileProgram e).Ends s := by
  unfold compileProgram
  split_ifs
  · exact ends_pure () s
  · exact ends_throw _ s

theorem writeUnits_ends (units : List ProgramUnit) (written : List Path) (s : Run) :
    (writeUnits e units written).Ends s := by
  induction units generalizing written s with
  | nil => exact ends_pure written s
  | cons u units ih =>
    obtain ⟨_ | unit, binary⟩ := u
    · exact ih written s
    rw [writeUnits]
    dsimp only
    split_ifs
    · exact ih written s
    · rcases binary with _ | bytes
      · exact ends_throw _ s
      · exact ends_bind (putFile_ends unit bytes _) (fun _ => ih (written.insert unit)) s

theorem writeLton_ends (written : List Path) (s : Run) : (writeLton e written).Ends s := by
  refine ends_get_bind.mpr ?_
  split_ifs
  · rcases stat e.mounts s.disk confLton with _ | _ | data
    · exact ends_throw _ s
    · exact ends_throw _ s
    · dsimp only
      rcases e.program.ltonWrite data with why | bytes
      · exact ends_throw _ s
      · exact ends_bind (write_ends _ _ _) (fun _ => ends_pure _) s
  · exact ends_pure written s

theorem copyFile_ends (written : List Path) (path : Path) (s : Run) :
    (copyFile e written path).Ends s := by
  unfold copyFile
  split_ifs
  · exact ends_pure () s
  · refine ends_get_bind.mpr ?_
    rcases stat e.mounts s.disk path with _ | _ | data
    · exact ends_throw _ s
    · exact ends_throw _ s
    · exact ends_bind (putFile_ends path data _) (fun _ s => ends_of_result (result_modify _ s)) s

/-! ## What the steps leave -/

section

variable {P : Run → Prop} {E : String → Run → Prop}

theorem parents_does {unit : Path} {Q : Unit → Run → Prop}
    (h : ∀ s, P s → Q () { s with disk := makeParents e.os s.disk e.dest unit }) :
    Does P (parents e unit) Q E := .modify h

theorem write_does {path : Path} {bytes : Bytes} {trouble : String} {Q : Unit → Run → Prop}
    (hok : ∀ s, P s → (writeBytes e.os s.disk path bytes).2 = true →
      Q () { s with disk := (writeBytes e.os s.disk path bytes).1 })
    (hfail : ∀ s, P s → (writeBytes e.os s.disk path bytes).2 = false →
      E trouble { s with disk := (writeBytes e.os s.disk path bytes).1 }) :
    Does P (write e path bytes trouble) Q E := by
  refine .get_bind fun s hs => ?_
  refine @Does.bind _ _ _ _ _
    (fun _ t => t = { s with disk := (writeBytes e.os s.disk path bytes).1 }) _ _ _ _ ?_ fun _ => ?_
  · exact .modify fun _ _ => rfl
  split_ifs with h
  · exact .pure fun t ht => ht ▸ hok s hs h
  · exact .throw fun t ht => ht ▸ hfail s hs (Bool.eq_false_iff.mpr h)

/-- What holds between the steps: `A` before units are written, `U` of the paths that were
written so far, and `F` in the end. -/
structure Stages (e : Site) (P A : Run → Prop) (U : List Path → Run → Prop) (F : Run → Prop)
    (E : String → Run → Prop) : Prop where
  made : ∀ s, P s → A { s with disk := mkdir e.os s.disk e.dest }
  checked : Does A (checkAllUnits e []) (fun _ => A) E
  compiled : Does A (compileProgram e) (fun _ => A) E
  units : Does A (writeUnits e e.program.units []) U E
  lton : ∀ written, Does (U written) (writeLton e written) U E
  rest : ∀ written, Does (U written) (copyRest e written []) (fun _ => F) E

variable {A : Run → Prop} {U : List Path → Run → Prop} {F : Run → Prop}

theorem Stages.made_does (h : Stages e P A U F E) :
    Does P (LoopM.modify fun s => { s with disk := mkdir e.os s.disk e.dest }) (fun _ => A) E :=
  .modify h.made

theorem Stages.does (h : Stages e P A U F E) : Does P (compileGame e) (fun _ => F) E := by
  refine .bind h.made_does fun _ => ?_
  refine .bind h.checked fun _ => ?_
  refine .bind h.compiled fun _ => ?_
  refine .bind h.units fun units => ?_
  refine .bind (h.lton units) fun written => ?_
  refine .bind (h.rest written) fun _ => ?_
  exact .get_bind fun s hs => .pure fun t ht => ht ▸ hs

theorem Stages.ends (h : Stages e P A U F E) (hcheck : ∀ s, A s → (checkAllUnits e []).Ends s)
    (hrest : ∀ written s, U written s → (copyRest e written []).Ends s) (s : Run) (hs : P s) :
    (compileGame e).Ends s := by
  refine h.made_does.ends_bind (fun s _ => ends_of_result (result_modify _ s))
    (fun _ => ?_) s hs
  refine h.checked.ends_bind hcheck fun _ => ?_
  refine h.compiled.ends_bind (fun s _ => compileProgram_ends s) fun _ => ?_
  refine h.units.ends_bind (fun s _ => writeUnits_ends _ _ s) fun units => ?_
  refine (h.lton units).ends_bind (fun s _ => writeLton_ends units s) fun written => ?_
  refine (h.rest written).ends_bind (hrest written) fun _ s _ => ?_
  exact ends_get_bind.mpr (ends_pure _ s)

end

end Lhatove.Lh
