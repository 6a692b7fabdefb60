import Lhatove.Filesystem.Mounts

/-!
# Mounts that are undone

When `unmount` undoes what `mount` did, and which names `mount` refuses.

- `Inside`: a path is another one, or in the directory that it is;
- `undone_iff`: the search path is as it was, unless data of that name is unmounted in its place,
  or the name is found in what was mounted itself;
- `respects_iff`: what is in the game source is refused, and nothing else, unless the source has no
  path, the path of another directory begins as its does, or the name leads into it from above.
-/

namespace Lhatove.Physfs

open List
open Prod (ext fst snd)

/-! ## Paths -/

/-- The path of a directory, as the paths in it begin. -/
def withSlash (path : Path) : Path :=
  if path = [] ∨ path.getLast? = some '/' then path else path ++ ['/']

/-- A path is the other one, or goes on behind it. -/
def Under (directory path : Path) : Prop := path = directory ∨ withSlash directory <+: path

/-- A path is that of the game source, or of something in it; without a source, there is none. -/
def Inside (gameSource path : Path) : Prop := gameSource ≠ [] ∧ Under gameSource path

section Paths

variable {directory path name : Path}

theorem prefix_withSlash (path : Path) : path <+: withSlash path := by
  rw [withSlash]
  split_ifs
  · exact prefix_rfl
  · exact prefix_append _ _

theorem withSlash_length_le (path : Path) : (withSlash path).length ≤ path.length + 1 := by
  rw [withSlash]
  split_ifs
  · omega
  · rw [length_append, length_singleton]

theorem withSlash_below (directory name : Path) :
    withSlash (directory ++ '/' :: name) = directory ++ '/' :: withSlash name := by
  have hne : directory ++ '/' :: name ≠ [] :=
    append_ne_nil_of_right_ne_nil _ (cons_ne_nil _ _)
  have hlast : (directory ++ '/' :: name = [] ∨
      (directory ++ '/' :: name).getLast? = some '/') ↔
      (name = [] ∨ name.getLast? = some '/') := by
    rw [or_iff_right hne, getLast?_append_of_ne_nil _ (cons_ne_nil _ _)]
    cases name with
    | nil => exact iff_of_true rfl (.inl rfl)
    | cons c rest =>
      exact (or_iff_right (cons_ne_nil _ _)).symm
  rw [withSlash, withSlash]
  by_cases hends : name = [] ∨ name.getLast? = some '/'
  · rw [if_pos hends, if_pos (hlast.mpr hends)]
  · rw [if_neg hends, if_neg (mt hlast.mp hends), append_assoc, cons_append]

theorem Under.below (h : Under directory path) : Under directory (path ++ '/' :: name) := by
  refine .inr ?_
  rcases h with rfl | h
  · rw [withSlash]
    split_ifs
    · exact prefix_append _ _
    · exact ⟨name, by rw [append_assoc, singleton_append]⟩
  · exact h.trans (prefix_append _ _)

theorem under_of_below (hbegins : directory <+: path) (h : Under directory (path ++ '/' :: name)) :
    Under directory path := by
  have hle := hbegins.length_le
  rcases h with heq | h
  · have hlength := congrArg length heq
    rw [length_append, length_cons] at hlength
    omega
  · by_cases hshort : (withSlash directory).length ≤ path.length
    · exact .inr (prefix_of_prefix_length_le h (prefix_append _ _) hshort)
    · have hslash := withSlash_length_le directory
      exact .inl (hbegins.eq_of_length (by omega)).symm

/-- A name leads into a directory that is not above the place where it is looked up, if the
directory is below that place, and the name is under the rest of its path. -/
theorem under_below_iff (hnot : ¬ directory <+: path) :
    Under directory (path ++ '/' :: name) ↔
      ∃ rest, directory = path ++ '/' :: rest ∧ Under rest name := by
  constructor
  · intro h
    have hbegins : directory <+: path ++ '/' :: name := by
      rcases h with heq | h
      · exact heq ▸ prefix_rfl
      · exact (prefix_withSlash directory).trans h
    have hbelow : path <+: directory :=
      ( prefix_or_prefix_of_prefix hbegins (prefix_append _ _)).resolve_left hnot
    obtain ⟨t, rfl⟩ := hbelow
    have hrest := (prefix_append_right_inj path).mp hbegins
    cases t with
    | nil => exact absurd (by rw [append_nil]) hnot
    | cons c rest =>
      obtain ⟨rfl, -⟩ := cons_prefix_cons.mp hrest
      refine ⟨rest, rfl, ?_⟩
      rcases h with heq | h
      · exact .inl (List.cons.inj (append_cancel_left heq)).2
      · rw [withSlash_below, prefix_append_right_inj, cons_prefix_cons] at h
        exact .inr h.2
  · rintro ⟨rest, rfl, h⟩
    rcases h with rfl | h
    · exact .inl rfl
    · right
      rw [withSlash_below, prefix_append_right_inj, cons_prefix_cons]
      exact ⟨rfl, h⟩

end Paths

namespace Session

variable {platform : Platform} {answers : Answers} {contents : Contents} {archive : Path}
  {mountpoint : Option Path} {append : Bool} {s t : Session}

/-! ## Undoing a mount -/

/-- What a mount puts into the search path. -/
def newEntry (platform : Platform) (realPath : Path) (mountpoint : Option Path) : Entry :=
  ⟨platform.canonicalizeRealPath realPath, mountpoint.getD ['/'], false, none⟩

/-- The path was not mounted, and can be. -/
def Mountable (platform : Platform) (answers : Answers) (mountpoint : Option Path)
    (realPath : Path) (s : Session) : Prop :=
  isMounted s.searchPath (platform.canonicalizeRealPath realPath) = false ∧
    answers.opens (newEntry platform realPath mountpoint) = true

/-- The search path with a new entry. -/
def extended (append : Bool) (new : Entry) (searchPath : List Entry) : List Entry :=
  if append = true then searchPath ++ [new] else new :: searchPath

theorem mountFullPath_eq (fs : Filesystem) {realPath canonpath : Path}
    {permissions : MountPermissions} {mountedFor : Option CommonPath}
    (hcanon : platform.canonicalizeRealPath realPath = canonpath) (new : Entry)
    (hentry : new = ⟨canonpath, mountpoint.getD ['/'], permissions = .readwrite, mountedFor⟩) :
    Filesystem.mountFullPath platform answers realPath mountpoint permissions append mountedFor fs =
      if isMounted fs.searchPath canonpath = true then (false, fs)
      else if answers.opens new = true then
        (true, { fs with
          searchPath := if append = true then fs.searchPath ++ [new] else new :: fs.searchPath })
      else (false, fs) := by
  have hname : new.dirName = canonpath := by rw [hentry]
  rw [Filesystem.mountFullPath, hcanon, ← hentry, physfsMount, hname]
  cases isMounted fs.searchPath canonpath with
  | true => rfl
  | false => cases answers.opens new <;> rfl

theorem mount_eq_true :
    mount platform answers contents archive mountpoint append s = (true, t) ↔
      ∃ realPath, resolve platform contents archive s = .path realPath ∧
        Mountable platform answers mountpoint realPath s ∧
        t = s.withSearchPath (extended append (newEntry platform realPath mountpoint)
          s.searchPath) := by
  rw [mount]
  cases hresolve : resolve platform contents archive s with
  | path realPath =>
    dsimp only
    rw [mountFullPath_eq s.toFilesystem rfl (newEntry platform realPath mountpoint) rfl]
    constructor
    · intro h
      refine ⟨realPath, rfl, ?_⟩
      split at h
      · exact absurd (congrArg fst h) Bool.false_ne_true
      next hmounted =>
        split at h
        next hopens =>
          exact ⟨⟨Bool.not_eq_true _ ▸ hmounted, hopens⟩, (congrArg snd h).symm⟩
        · exact absurd (congrArg fst h) Bool.false_ne_true
    · rintro ⟨other, heq, ⟨hmounted, hopens⟩, rfl⟩
      cases heq
      rw [if_neg (by rw [hmounted]; exact Bool.false_ne_true), if_pos hopens]
      rfl
  | inSource =>
    refine iff_of_false (fun h => absurd (congrArg fst h) Bool.false_ne_true) ?_
    rintro ⟨_, heq, -⟩
    cases heq
  | nothing =>
    refine iff_of_false (fun h => absurd (congrArg fst h) Bool.false_ne_true) ?_
    rintro ⟨_, heq, -⟩
    cases heq

theorem extended_erase {new : Entry} {searchPath : List Entry}
    (h : isMounted searchPath new.dirName = false) :
    (extended append new searchPath).eraseP (fun e => e.dirName = new.dirName) = searchPath :=
  unmounted_mounted h

theorem mem_extended {new e : Entry} {searchPath : List Entry} :
    e ∈ extended append new searchPath ↔ e = new ∨ e ∈ searchPath := mem_mounted

theorem isMounted_extended {new : Entry} {searchPath : List Entry} {path : Path} :
    isMounted (extended append new searchPath) path = true ↔
      new.dirName = path ∨ isMounted searchPath path = true := by
  rw [isMounted_iff, isMounted_iff]
  constructor
  · rintro ⟨e, he, hname⟩
    rcases mem_extended.mp he with rfl | he
    · exact .inl hname
    · exact .inr ⟨e, he, hname⟩
  · rintro (hname | ⟨e, he, hname⟩)
    · exact ⟨new, mem_extended.mpr (.inl rfl), hname⟩
    · exact ⟨e, mem_extended.mpr (.inr he), hname⟩

theorem extended_erase_other {new : Entry} {searchPath : List Entry} {path : Path}
    (h : isMounted searchPath new.dirName = false) (hother : new.dirName ≠ path) :
    (extended append new searchPath).eraseP (fun e => e.dirName = path) ≠ searchPath := by
  intro heq
  have hnew : new ∈ (extended append new searchPath).eraseP (fun e => e.dirName = path) :=
    (mem_eraseP_of_neg (by simpa using hother)).mpr (mem_extended.mpr (.inl rfl))
  rw [heq] at hnew
  exact isMounted_eq_false.mp h new hnew rfl

/-- What was just mounted can be unmounted, and then the search path is as it was. -/
theorem physfsUnmount_new {new : Entry} {searchPath : List Entry}
    (h : isMounted searchPath new.dirName = false) (hfree : answers.inUse new.dirName = false) :
    physfsUnmount answers (extended append new searchPath) new.dirName = (true, searchPath) := by
  have hcan : canUnmount answers (extended append new searchPath) new.dirName = true := by
    rw [canUnmount, isMounted_extended.mpr (.inl rfl), hfree]
    rfl
  rw [physfsUnmount, if_pos hcan, extended_erase h]

theorem physfsUnmount_other {new : Entry} {searchPath : List Entry} {path : Path}
    (h : isMounted searchPath new.dirName = false) (hother : new.dirName ≠ path) :
    physfsUnmount answers (extended append new searchPath) path ≠ (true, searchPath) := by
  rw [physfsUnmount]
  split_ifs
  · intro heq
    exact extended_erase_other h hother (congrArg snd heq)
  · intro heq
    exact absurd (congrArg fst heq) Bool.false_ne_true

/-- `unmount` gives back the search path from before a mount. -/
def Undone (platform : Platform) (answers : Answers) (contents : Contents) (archive : Path)
    (s t : Session) : Prop :=
  (unmount platform answers contents archive t).1 = true ∧
    (unmount platform answers contents archive t).2.searchPath = s.searchPath

/-- When it does: no data is mounted by that name, and where the name is looked up in the search
path, it is not found in what was mounted. -/
structure Undoable (platform : Platform) (answers : Answers) (contents : Contents) (archive : Path)
    (append : Bool) (new : Entry) (s : Session) : Prop where
  data : ¬ (archive ∈ s.mountedData ∧ canUnmount answers s.searchPath archive = true)
  found : isAllowed platform s archive = false →
    append = true ∨ contents new archive = false ∨
      platform.canonicalizeRealPath (new.dirName ++ '/' :: archive) = new.dirName ∨
      archive ∈ s.mountedData ∧ archive = new.dirName

theorem getRealDir_append {new : Entry} {searchPath : List Entry} {realDir : Path}
    (h : getRealDir contents searchPath archive = some realDir) :
    getRealDir contents (searchPath ++ [new]) archive = some realDir := by
  rw [getRealDir, Option.map_eq_some_iff] at h ⊢
  obtain ⟨e, he, hname⟩ := h
  refine ⟨e, ?_, hname⟩
  rw [find?_append, he]
  rfl

theorem getRealDir_cons {new : Entry} {searchPath : List Entry} :
    getRealDir contents (new :: searchPath) archive =
      if contents new archive = true then some new.dirName
      else getRealDir contents searchPath archive := by
  rw [getRealDir, find?_cons]
  cases contents new archive <;> rfl

theorem resolve_relative (hallowed : isAllowed platform s archive = false) {realPath : Path}
    (hresolve : resolve platform contents archive s = .path realPath) :
    isUnsafe archive = false ∧ ∃ realDir, getRealDir contents s.searchPath archive = some realDir ∧
      realPath = realDir ++ '/' :: archive := by
  rw [resolve, hallowed, if_neg Bool.false_ne_true] at hresolve
  cases hunsafe : isUnsafe archive with
  | true =>
    rw [ hunsafe, if_pos rfl] at hresolve
    cases hresolve
  | false =>
    rw [ hunsafe, if_neg Bool.false_ne_true] at hresolve
    cases hdir : getRealDir contents s.searchPath archive with
    | none =>
      rw [hdir] at hresolve
      cases hresolve
    | some realDir =>
      rw [hdir] at hresolve
      dsimp only at hresolve
      split_ifs at hresolve
      cases hresolve
      exact ⟨rfl, realDir, rfl, rfl⟩

theorem resolve_allowed (hallowed : isAllowed platform s archive = true) :
    resolve platform contents archive s = .path archive := by
  rw [resolve, hallowed, if_pos rfl]

section Unmount

variable {new : Entry}

theorem unmount_data (hdata : archive ∈ s.mountedData)
    (hcan : (physfsUnmount answers s.searchPath archive).1 = true) :
    (unmount platform answers contents archive s).1 = true ∧
      (unmount platform answers contents archive s).2.searchPath =
        (physfsUnmount answers s.searchPath archive).2 := by
  rw [unmount]
  rw [if_pos ⟨hdata, hcan⟩]
  exact ⟨rfl, rfl⟩

theorem unmount_allowed
    (hdata : ¬ (archive ∈ s.mountedData ∧ (physfsUnmount answers s.searchPath archive).1 = true))
    (hallowed : isAllowed platform s archive = true) :
    (unmount platform answers contents archive s).1 =
        (physfsUnmount answers s.searchPath (platform.canonicalizeRealPath archive)).1 ∧
      (unmount platform answers contents archive s).2.searchPath =
        (physfsUnmount answers s.searchPath (platform.canonicalizeRealPath archive)).2 := by
  rw [unmount]
  rw [if_neg hdata, if_pos hallowed]
  exact ⟨rfl, rfl⟩

theorem unmount_relative
    (hdata : ¬ (archive ∈ s.mountedData ∧ (physfsUnmount answers s.searchPath archive).1 = true))
    (hallowed : isAllowed platform s archive = false) ( hunsafe : isUnsafe archive = false)
    {realDir canonpath : Path} (hdir : getRealDir contents s.searchPath archive = some realDir)
    (hcanon : platform.canonicalizeRealPath (realDir ++ '/' :: archive) = canonpath) :
    ((unmount platform answers contents archive s).1,
        (unmount platform answers contents archive s).2.searchPath) =
      physfsUnmount answers s.searchPath canonpath := by
  rw [unmount]
  rw [if_neg hdata, hallowed, if_neg Bool.false_ne_true, hunsafe, if_neg Bool.false_ne_true, hdir]
  dsimp only
  rw [hcanon]
  cases hmounted : isMounted s.searchPath canonpath with
  | true =>
    rfl
  | false =>
    have hcannot : ¬ canUnmount answers s.searchPath canonpath = true := by
      rw [canUnmount, hmounted]
      exact Bool.false_ne_true
    rw [if_pos rfl, physfsUnmount, if_neg hcannot]

end Unmount

/-- **When a mount is undone** by unmounting the same name. -/
theorem undone_iff {realPath : Path}
    (hresolve : resolve platform contents archive s = .path realPath)
    (hnew : isMounted s.searchPath (platform.canonicalizeRealPath realPath) = false)
    (hfree : answers.inUse (platform.canonicalizeRealPath realPath) = false) :
    Undone platform answers contents archive s (s.withSearchPath
        (extended append (newEntry platform realPath mountpoint) s.searchPath)) ↔
      Undoable platform answers contents archive append (newEntry platform realPath mountpoint)
        s := by
  obtain ⟨new, hentry⟩ : ∃ new, new = newEntry platform realPath mountpoint := ⟨_, rfl⟩
  have hname : new.dirName = platform.canonicalizeRealPath realPath := by rw [hentry]; rfl
  rw [← hentry]
  rw [← hname] at hnew hfree
  have hback := @physfsUnmount_new answers append new s.searchPath hnew hfree
  obtain ⟨t, ht⟩ : ∃ t, t = s.withSearchPath (extended append new s.searchPath) := ⟨_, rfl⟩
  have hpath : t.searchPath = extended append new s.searchPath := by rw [ht]; rfl
  have hallowed : isAllowed platform t archive = isAllowed platform s archive := by rw [ht]; rfl
  have hdata : t.mountedData = s.mountedData := by rw [ht]; rfl
  rw [← ht]
  have hcannot : canUnmount answers s.searchPath new.dirName = false := by
    rw [canUnmount, hnew]
    rfl
  by_cases hkey : archive ∈ s.mountedData ∧
      (physfsUnmount answers (extended append new s.searchPath) archive).1 = true
  · -- what has that name is unmounted
    obtain ⟨htrue, hleft⟩ := @unmount_data platform answers contents archive t
      (by rw [hdata]; exact hkey.1) (by rw [hpath]; exact hkey.2)
    rw [hpath] at hleft
    by_cases hsame : new.dirName = archive
    · rw [← hsame, hback, hsame] at hleft
      refine iff_of_true ⟨htrue, hleft⟩ ⟨?_, fun _ => .inr (.inr (.inr ⟨hkey.1, hsame.symm⟩))⟩
      rw [← hsame, hcannot]
      exact fun h => absurd h.2 Bool.false_ne_true
    · refine iff_of_false (fun h => ?_) fun h => h.data ⟨hkey.1, ?_⟩
      · exact physfsUnmount_other hnew hsame (ext hkey.2 (hleft.symm.trans h.2))
      · have hcan := hkey.2
        rw [physfsUnmount] at hcan
        by_cases hc : canUnmount answers (extended append new s.searchPath) archive = true
        · rw [canUnmount, Bool.and_eq_true, isMounted_extended] at hc
          rw [canUnmount, hc.1.resolve_left hsame, hc.2]
          rfl
        · rw [if_neg hc] at hcan
          exact absurd hcan Bool.false_ne_true
  · have hnodata : ¬ (archive ∈ s.mountedData ∧
        canUnmount answers s.searchPath archive = true) := by
      rintro ⟨hmem, hcan⟩
      refine hkey ⟨hmem, ?_⟩
      rw [canUnmount, Bool.and_eq_true] at hcan
      have hcan' : canUnmount answers (extended append new s.searchPath) archive = true := by
        rw [canUnmount, isMounted_extended.mpr (.inr hcan.1), hcan.2]
        rfl
      rw [physfsUnmount, if_pos hcan']
    have hkey' : ¬ (archive ∈ t.mountedData ∧
        (physfsUnmount answers t.searchPath archive).1 = true) := by
      rw [hdata, hpath]
      exact hkey
    cases hallow : isAllowed platform s archive with
    | true =>
      rw [resolve_allowed hallow] at hresolve
      cases hresolve
      obtain ⟨hone, hleft⟩ := @unmount_allowed platform answers contents archive t hkey'
        (hallowed.trans hallow)
      rw [hpath, ← hname, hback] at hone hleft
      exact iff_of_true ⟨hone, hleft⟩
        ⟨hnodata, fun h => absurd (hallow.symm.trans h) (by decide)⟩
    | false =>
      obtain ⟨ hunsafe, realDir, hdir, hreal⟩ := resolve_relative hallow hresolve
      rw [hreal] at hname
      -- where the name is found again
      have hagain : ∀ {dir canonpath}, getRealDir contents t.searchPath archive = some dir →
          platform.canonicalizeRealPath (dir ++ '/' :: archive) = canonpath →
          (Undone platform answers contents archive s t ↔
            physfsUnmount answers (extended append new s.searchPath) canonpath =
              (true, s.searchPath)) := by
        intro dir canonpath hdir' hcanon
        rw [← hpath, ← unmount_relative hkey' (hallowed.trans hallow) hunsafe hdir' hcanon,
          Prod.mk.injEq]
        exact .rfl
      cases happend : append with
      | true =>
        have hdir' : getRealDir contents t.searchPath archive = some realDir := by
          rw [hpath, extended, if_pos happend]
          exact getRealDir_append hdir
        rw [hagain hdir' hname.symm, hback]
        exact iff_of_true rfl ⟨hnodata, fun _ => .inl rfl⟩
      | false =>
        cases hcontents : contents new archive with
        | false =>
          have hdir' : getRealDir contents t.searchPath archive = some realDir := by
            rw [hpath, extended, happend, if_neg Bool.false_ne_true, getRealDir_cons, hcontents,
              if_neg Bool.false_ne_true, hdir]
          rw [hagain hdir' hname.symm, hback]
          exact iff_of_true rfl ⟨hnodata, fun _ => .inr (.inl hcontents)⟩
        | true =>
          have hdir' : getRealDir contents t.searchPath archive = some new.dirName := by
            rw [hpath, extended, happend, if_neg Bool.false_ne_true, getRealDir_cons, hcontents,
              if_pos rfl]
          rw [hagain hdir' rfl]
          by_cases hloop :
              platform.canonicalizeRealPath (new.dirName ++ '/' :: archive) = new.dirName
          · rw [hloop, hback]
            exact iff_of_true rfl ⟨hnodata, fun _ => .inr (.inr (.inl hloop))⟩
          · refine iff_of_false (physfsUnmount_other hnew (.symm hloop)) fun h => ?_
            rcases h.found hallow with h | h | h | ⟨hmem, hsame⟩
            · cases h
            · rw [hcontents] at h
              cases h
            · exact hloop h
            · refine hkey ⟨hmem, ?_⟩
              rw [hsame, hback]

/-! ## The game source -/

/-- The name is looked up in the search path, and found in a directory. -/
structure Relative (platform : Platform) (contents : Contents) (archive realDir : Path)
    (s : Session) : Prop where
  allowed : isAllowed platform s archive = false
  safe : isUnsafe archive = false
  found : getRealDir contents s.searchPath archive = some realDir

theorem Relative.resolve {realDir : Path} (h : Relative platform contents archive realDir s) :
    resolve platform contents archive s =
      if s.gameSource <+: realDir then .inSource else .path (realDir ++ '/' :: archive) := by
  rw [Session.resolve, h.allowed, if_neg Bool.false_ne_true, h.safe, if_neg Bool.false_ne_true,
    h.found]

/-- What is refused as being in the game source is in it, and what is mounted is not. -/
def Respects (platform : Platform) (answers : Answers) (contents : Contents) (archive : Path)
    (mountpoint : Option Path) (append : Bool) (s : Session) : Prop :=
  ∀ realDir, Relative platform contents archive realDir s →
    (resolve platform contents archive s = .inSource →
      Inside s.gameSource (realDir ++ '/' :: archive)) ∧
    ((mount platform answers contents archive mountpoint append s).1 = true →
      ¬ Inside s.gameSource (realDir ++ '/' :: archive))

/-- There is a source; where the directory's path begins as its does, it is the source or in it;
and where the source is below the directory, the name does not lead into it, or nothing is
mounted. -/
structure Separate (platform : Platform) (answers : Answers) (archive : Path)
    (mountpoint : Option Path) (realDir : Path) (s : Session) : Prop where
  source : s.gameSource ≠ []
  sibling : s.gameSource <+: realDir → Under s.gameSource realDir
  above : ¬ s.gameSource <+: realDir → ∀ rest, s.gameSource = realDir ++ '/' :: rest →
    Under rest archive → ¬ Mountable platform answers mountpoint (realDir ++ '/' :: archive) s

theorem mount_fst {realPath : Path}
    (hresolve : resolve platform contents archive s = .path realPath) :
    (mount platform answers contents archive mountpoint append s).1 = true ↔
      Mountable platform answers mountpoint realPath s := by
  constructor
  · intro h
    obtain ⟨other, hother, hm, -⟩ := mount_eq_true.mp (ext h rfl)
    rw [hresolve] at hother
    cases hother
    exact hm
  · intro h
    exact congrArg fst (mount_eq_true.mpr ⟨realPath, hresolve, h, rfl⟩)

theorem respects_iff :
    Respects platform answers contents archive mountpoint append s ↔
      ∀ realDir, Relative platform contents archive realDir s →
        Separate platform answers archive mountpoint realDir s := by
  refine forall_congr' fun realDir => forall_congr' fun hrelative => ?_
  have hresolve := hrelative.resolve
  by_cases hbegins : s.gameSource <+: realDir
  · -- the name is refused
    rw [if_pos hbegins] at hresolve
    have hrefused : (mount platform answers contents archive mountpoint append s).1 = false := by
      rw [mount, hresolve]
    constructor
    · intro h
      obtain ⟨hsource, hunder⟩ := h.1 hresolve
      exact ⟨hsource, fun _ => under_of_below hbegins hunder, fun hnot => absurd hbegins hnot⟩
    · intro h
      refine ⟨fun _ => ⟨h.source, (h.sibling hbegins).below⟩, fun hmounted => ?_⟩
      rw [hrefused] at hmounted
      cases hmounted
  · rw [if_neg hbegins] at hresolve
    have hsource : s.gameSource ≠ [] := by
      intro hnone
      rw [hnone] at hbegins
      exact hbegins nil_prefix
    rw [mount_fst hresolve]
    constructor
    · rintro ⟨-, hnever⟩
      refine ⟨hsource, fun h => absurd h hbegins, fun _ rest hrest hunder hm => ?_⟩
      exact hnever hm ⟨hsource, (under_below_iff hbegins).mpr ⟨rest, hrest, hunder⟩⟩
    · intro h
      refine ⟨fun hrefused => ?_, fun hm hinside => ?_⟩
      · rw [hresolve] at hrefused
        cases hrefused
      · obtain ⟨rest, hrest, hunder⟩ := (under_below_iff hbegins).mp hinside.2
        exact h.above hbegins rest hrest hunder hm

/-! ## Both -/

/-- A system where paths are as they are. -/
def literal : Platform where
  fused := false
  appdataFolder := ['l']
  userPath _ := []
  canonicalizeRealPath path := path
  canonicalize_idem _ := rfl

/-- Everything can be mounted, and nothing is used. -/
def willing : Answers := ⟨fun _ => true, fun _ => true, fun _ => true, fun _ => false⟩

/-- The save directory `/s` is mounted, where there is `m`; in `/s/m`, when it is mounted at `m`,
there is `m`, too. -/
def holding : Contents := fun e name =>
  name = ['m'] && (e.dirName = ['/', 's'] || e.mountPoint = ['m'])

def playing : Session where
  saveIdentity := ['g']
  appendIdentityToPath := false
  fullPaths _ := []
  commonPathMountInfo _ := ⟨false, [], .read⟩
  saveDirectoryNeedsMounting := false
  searchPath := [⟨['/', 's'], ['/'], true, some .appSavedir⟩]
  gameSource := ['/', 'g']
  allowedMountPaths := []
  mountedData := []

end Session

end Lhatove.Physfs
