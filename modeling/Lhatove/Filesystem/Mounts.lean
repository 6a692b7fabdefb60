import Lhatove.Filesystem.CommonPaths
import Lhatove.Lib.Search

/-!
# Mounting by name

`love::filesystem::physfs::Filesystem`: `mount` and `unmount` of archives by their names.

- `Contents`: which names an entry of the search path has, under its mount point;
- `Session.resolve`: what is to be mounted for a name.
-/

namespace Lhatove.Physfs

/-- Whether there is something with a name in an entry, under its mount point. -/
abbrev Contents := Entry → Path → Bool

/-- `PHYSFS_getRealDir` -/
def getRealDir (contents : Contents) (searchPath : List Entry) (name : Path) : Option Path :=
  (searchPath.find? fun e => contents e name).map Entry.dirName

/-- `Filesystem`, with what the names of archives are looked up in. The keys of `mountedData` are
kept, without their data. -/
structure Session extends Filesystem where
  gameSource : Path
  allowedMountPaths : List Path
  mountedData : List Path

/-- What a name is found to be. -/
inductive Resolved
  | path (realPath : Path)
  | inSource
  | nothing

namespace Session

variable (platform : Platform) (answers : Answers) (contents : Contents)

def getSourceBaseDirectory (s : Session) : Path :=
  if s.gameSource.length = 0 then []
  else
    -- `source_len - 2` is no place of a name with one character, and all of it is searched
    let searched :=
      if s.gameSource.length = 1 then s.gameSource
      else s.gameSource.take (s.gameSource.length - 1)
    match rfind ['/'] searched with
    | none => []
    | some 0 => s.gameSource.take 1
    | some (i + 1) => s.gameSource.take (i + 1)

/-- A path of which `mount` and `unmount` do not look into the search path. -/
def isAllowed (s : Session) (archive : Path) : Bool :=
  archive ∈ s.allowedMountPaths || (platform.fused && s.getSourceBaseDirectory = archive)

/-- Names that are not allowed. -/
def isUnsafe (archive : Path) : Bool := archive = [] || ['.', '.'] <:+: archive || archive = ['/']

def resolve (archive : Path) (s : Session) : Resolved :=
  if isAllowed platform s archive = true then .path archive
  else if isUnsafe archive = true then .nothing
  else
    match getRealDir contents s.searchPath archive with
    | none => .nothing
    | some realDir =>
      if s.gameSource <+: realDir then .inSource else .path (realDir ++ '/' :: archive)

/-- `mount(archive, mountpoint, appendToPath)` -/
def mount (archive : Path) (mountpoint : Option Path) (appendToPath : Bool) (s : Session) :
    Bool × Session :=
  match resolve platform contents archive s with
  | .path realPath =>
    let r := Filesystem.mountFullPath platform answers realPath mountpoint .read appendToPath none
      s.toFilesystem
    (r.1, { s with toFilesystem := r.2 })
  | .inSource => (false, s)
  | .nothing => (false, s)

def withSearchPath (s : Session) (searchPath : List Entry) : Session :=
  { s with searchPath := searchPath }

/-- `unmount(archive)` -/
def unmount (archive : Path) (s : Session) : Bool × Session :=
  let data := physfsUnmount answers s.searchPath archive
  if archive ∈ s.mountedData ∧ data.1 = true then
    (true, { s.withSearchPath data.2 with mountedData := s.mountedData.erase archive })
  else if isAllowed platform s archive = true then
    let r := Filesystem.unmountFullPath platform answers archive s.toFilesystem
    (r.1, { s with toFilesystem := r.2 })
  else if isUnsafe archive = true then (false, s)
  else
    match getRealDir contents s.searchPath archive with
    | none => (false, s)
    | some realDir =>
      let canonpath := platform.canonicalizeRealPath (realDir ++ '/' :: archive)
      if isMounted s.searchPath canonpath = false then (false, s)
      else
        let r := physfsUnmount answers s.searchPath canonpath
        (r.1, s.withSearchPath r.2)

end Session

end Lhatove.Physfs
