import Lhatove.Filesystem.SearchPath

/-!
# Common paths and the save directory

`love::filesystem::physfs::Filesystem`: `setIdentity`, `setupWriteDirectory`, and mounts of
common paths.

- PhysFS is initialized, and the program is not for Android.
- `Platform`: which directories the system has for users, and what `std::filesystem` makes of a
  path.
-/

namespace Lhatove.Physfs

inductive MountPermissions
  | read
  | readwrite
  deriving DecidableEq

structure CommonPathMountInfo where
  mounted : Bool
  mountPoint : Path
  permissions : MountPermissions

/-- What the system says of paths; `weakly_canonical` makes a path canonical that is canonical. -/
structure Platform where
  fused : Bool
  appdataFolder : Path
  userPath : CommonPath → Path
  canonicalizeRealPath : Path → Path
  canonicalize_idem : ∀ path,
    canonicalizeRealPath (canonicalizeRealPath path) = canonicalizeRealPath path

/-- `Filesystem`, and the search path of PhysFS. -/
structure Filesystem where
  saveIdentity : Path
  appendIdentityToPath : Bool
  fullPaths : CommonPath → Path
  commonPathMountInfo : CommonPath → CommonPathMountInfo
  saveDirectoryNeedsMounting : Bool
  searchPath : List Entry

def appCommonPaths : List CommonPath := [.appSavedir, .appDocuments]

def isAppCommonPath (path : CommonPath) : Bool := path ∈ appCommonPaths

/-- `normalize`: one separator for separators that follow each other -/
def normalize : Bool → Path → Path
  | _, [] => []
  | seenSep, c :: rest =>
    if c = '/' ∧ seenSep = true then normalize true rest else c :: normalize (c = '/') rest

/-- The path of users that a path of applications is in. -/
def rootPath : CommonPath → CommonPath
  | .appSavedir => .userAppdata
  | .appDocuments => .userDocuments
  | path => path

namespace Filesystem

variable (platform : Platform) (answers : Answers)

def setFullPath (fs : Filesystem) (path : CommonPath) (full : Path) : Filesystem :=
  { fs with fullPaths := fun p => if p = path then full else fs.fullPaths p }

/-- `getFullCommonPath`, of a path that is not one of applications -/
def getFullUserPath (path : CommonPath) (fs : Filesystem) : Path × Filesystem :=
  if fs.fullPaths path ≠ [] then (fs.fullPaths path, fs)
  else
    let full :=
      if platform.userPath path ≠ [] then platform.canonicalizeRealPath (platform.userPath path)
      else []
    (full, fs.setFullPath path full)

/-- What is behind the root path. -/
def appSuffix (saveIdentity : Path) : Path :=
  if platform.fused = true then '/' :: saveIdentity
  else '/' :: platform.appdataFolder ++ '/' :: saveIdentity

def getFullCommonPath (path : CommonPath) (fs : Filesystem) : Path × Filesystem :=
  if fs.fullPaths path ≠ [] then (fs.fullPaths path, fs)
  else if isAppCommonPath path = true then
    if fs.saveIdentity = [] then (fs.fullPaths path, fs)
    else
      let root := getFullUserPath platform (rootPath path) fs
      if root.1 = [] then (root.2.fullPaths path, root.2)
      else
        let full := platform.canonicalizeRealPath
          (normalize false (root.1 ++ appSuffix platform fs.saveIdentity))
        (full, root.2.setFullPath path full)
  else getFullUserPath platform path fs

/-- `mountFullPath`, for a common path or none -/
def mountFullPath (archive : Path) (mountpoint : Option Path) (permissions : MountPermissions)
    (appendToPath : Bool) (mountedFor : Option CommonPath) (fs : Filesystem) : Bool × Filesystem :=
  let canonarchive := platform.canonicalizeRealPath archive
  if isMounted fs.searchPath canonarchive = true then (false, fs)
  else
    let r := physfsMount answers fs.searchPath
      ⟨canonarchive, mountpoint.getD ['/'], permissions = .readwrite, mountedFor⟩ appendToPath
    (r.1, { fs with searchPath := r.2 })

def setMountInfo (fs : Filesystem) (path : CommonPath) (info : CommonPathMountInfo) : Filesystem :=
  { fs with commonPathMountInfo := fun p => if p = path then info else fs.commonPathMountInfo p }

def mountCommonPathInternal (path : CommonPath) (mountpoint : Option Path)
    (permissions : MountPermissions) (appendToPath createDir : Bool) (fs : Filesystem) :
    Bool × Filesystem :=
  let r := getFullCommonPath platform path fs
  if r.1 = [] then (false, r.2)
  else if createDir = true ∧ isAppCommonPath path = true ∧ answers.isRealDirectory r.1 = false ∧
      answers.createRealDirectory r.1 = false then (false, r.2)
  else
    let m := mountFullPath platform answers r.1 mountpoint permissions appendToPath (some path) r.2
    if m.1 = true then (true, m.2.setMountInfo path ⟨true, mountpoint.getD ['/'], permissions⟩)
    else (false, m.2)

def mountCommonPath (path : CommonPath) (mountpoint : Option Path)
    (permissions : MountPermissions) (appendToPath : Bool) (fs : Filesystem) : Bool × Filesystem :=
  mountCommonPathInternal platform answers path mountpoint permissions appendToPath true fs

def unmountFullPath (fullpath : Path) (fs : Filesystem) : Bool × Filesystem :=
  let r := physfsUnmount answers fs.searchPath (platform.canonicalizeRealPath fullpath)
  (r.1, { fs with searchPath := r.2 })

/-- `unmount(CommonPath)` -/
def unmount (path : CommonPath) (fs : Filesystem) : Bool × Filesystem :=
  let r := getFullCommonPath platform path fs
  if r.1 = [] then (false, r.2)
  else
    let u := unmountFullPath platform answers r.1 r.2
    if u.1 = true then
      (true, u.2.setMountInfo path { u.2.commonPathMountInfo path with mounted := false })
    else (false, u.2)

/-- Whether the mounted ones of the paths can be unmounted. -/
def validate : List CommonPath → Filesystem → Bool × Filesystem
  | [], fs => (true, fs)
  | path :: rest, fs =>
    if (fs.commonPathMountInfo path).mounted = false then validate rest fs
    else
      let r := getFullCommonPath platform path fs
      if r.1 ≠ [] ∧
          canUnmount answers r.2.searchPath (platform.canonicalizeRealPath r.1) = false then
        (false, r.2)
      else validate rest r.2

/-- Unmounts those of the paths that are mounted, which are `oldMountedCommonPaths`. -/
def unmountAll : List CommonPath → Filesystem → List CommonPath × Filesystem
  | [], fs => ([], fs)
  | path :: rest, fs =>
    if (fs.commonPathMountInfo path).mounted = true then
      let r := unmountAll rest (unmount platform answers path fs).2
      (path :: r.1, r.2)
    else unmountAll rest fs

/-- Mounts those that were mounted before, but the save directory, again. -/
def remountAll (oldMountedCommonPaths : List CommonPath) (appendToPath : Bool) :
    List CommonPath → Filesystem → Filesystem
  | [], fs => fs
  | path :: rest, fs =>
    if path ∈ oldMountedCommonPaths ∧ path ≠ .appSavedir then
      remountAll oldMountedCommonPaths appendToPath rest
        (mountCommonPathInternal platform answers path
          (some (fs.commonPathMountInfo path).mountPoint)
          (fs.commonPathMountInfo path).permissions appendToPath true fs).2
    else remountAll oldMountedCommonPaths appendToPath rest fs

/-- A new identity: the full paths of applications are found again. -/
def identify (ident : Path) (appendToPath : Bool) (fs : Filesystem) : Filesystem :=
  { fs with
    fullPaths := fun p => if isAppCommonPath p = true then [] else fs.fullPaths p
    saveIdentity := ident
    appendIdentityToPath := appendToPath }

def setIdentity (ident : Option Path) (appendToPath : Bool) (fs : Filesystem) :
    Bool × Filesystem :=
  match ident with
  | none => (false, fs)
  | some ident =>
    if ident = [] then (false, fs)
    else
      let v := validate platform answers appCommonPaths fs
      if v.1 = false then (false, v.2)
      else
        let u := unmountAll platform answers appCommonPaths v.2
        let m := mountCommonPathInternal platform answers .appSavedir none .readwrite appendToPath
          false (u.2.identify ident appendToPath)
        (true, remountAll platform answers u.1 appendToPath appCommonPaths
          { m.2 with saveDirectoryNeedsMounting := !m.1 })

def setupWriteDirectory (fs : Filesystem) : Bool × Filesystem :=
  if fs.saveDirectoryNeedsMounting = false then (true, fs)
  else if fs.saveIdentity = [] then (false, fs)
  else
    let m := mountCommonPathInternal platform answers .appSavedir none .readwrite
      fs.appendIdentityToPath true fs
    if m.1 = false then (false, m.2)
    else (true, { m.2 with saveDirectoryNeedsMounting := false })

end Filesystem

/-! ## Runs -/

/-- The calls. -/
inductive Operation
  | setIdentity (ident : Option Path) (appendToPath : Bool)
  | mountCommonPath (path : CommonPath) (mountpoint : Option Path)
      (permissions : MountPermissions) (appendToPath : Bool)
  | unmount (path : CommonPath)
  | unmountFullPath (fullpath : Path)
  | setupWriteDirectory

def Operation.apply (platform : Platform) (answers : Answers) :
    Operation → Filesystem → Bool × Filesystem
  | setIdentity ident appendToPath => Filesystem.setIdentity platform answers ident appendToPath
  | mountCommonPath path mountpoint permissions appendToPath =>
    Filesystem.mountCommonPath platform answers path mountpoint permissions appendToPath
  | unmount path => Filesystem.unmount platform answers path
  | unmountFullPath fullpath => Filesystem.unmountFullPath platform answers fullpath
  | setupWriteDirectory => Filesystem.setupWriteDirectory platform answers

/-- As the constructor leaves it; what is mounted then is not mounted for a common path. -/
structure Initial (fs : Filesystem) : Prop where
  saveIdentity : fs.saveIdentity = []
  fullPaths : ∀ p, fs.fullPaths p = []
  mounted : ∀ p, (fs.commonPathMountInfo p).mounted = false
  permissions : ∀ p, (fs.commonPathMountInfo p).permissions = .read
  needsMounting : fs.saveDirectoryNeedsMounting = false
  searchPath : Distinct fs.searchPath ∧ ∀ e ∈ fs.searchPath, e.mountedFor = none

end Lhatove.Physfs
