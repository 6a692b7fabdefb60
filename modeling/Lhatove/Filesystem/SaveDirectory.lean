import Lhatove.Filesystem.CommonPaths
import Lhatove.Lib.Transition

/-!
# What is known of the save directory

What the records of common paths say of the search path, in runs of the calls.

- `Core`: what is mounted for a common path is mounted where the path is, and is recorded;
- `Proper`: the calls that keep the records, which neither mount nor unmount the save directory
  behind the back of `setIdentity` and `setupWriteDirectory`, nor unmount what is mounted for a
  common path by another name;
- `bookkept_of_reachable`: in runs of such calls the records are right, and so is the answer of
  `setupWriteDirectory`.
-/

namespace Lhatove.Physfs.Filesystem

variable {platform : Platform} {answers : Answers} {fs : Filesystem} {path : CommonPath}

/-! ## Full paths -/

/-- What is found for a path of users. -/
def userPathOf (platform : Platform) (path : CommonPath) : Path :=
  if platform.userPath path ≠ [] then platform.canonicalizeRealPath (platform.userPath path)
  else []

/-- The full path that a common path has. -/
def fullPathOf (platform : Platform) (saveIdentity : Path) (path : CommonPath) : Path :=
  if isAppCommonPath path = true then
    if saveIdentity = [] then []
    else if userPathOf platform (rootPath path) = [] then []
    else platform.canonicalizeRealPath
      (normalize false (userPathOf platform (rootPath path) ++ appSuffix platform saveIdentity))
  else userPathOf platform path

/-- The full path of a common path, as it is now. -/
abbrev full (platform : Platform) (fs : Filesystem) (path : CommonPath) : Path :=
  fullPathOf platform fs.saveIdentity path

theorem userPathOf_canonical (h : userPathOf platform path ≠ []) :
    platform.canonicalizeRealPath (userPathOf platform path) = userPathOf platform path := by
  rw [userPathOf] at h ⊢
  split_ifs at h ⊢ with hsome
  · exact platform.canonicalize_idem _
  · exact absurd rfl h

theorem fullPathOf_canonical {ident : Path} (h : fullPathOf platform ident path ≠ []) :
    platform.canonicalizeRealPath (fullPathOf platform ident path) =
      fullPathOf platform ident path := by
  rw [fullPathOf] at h ⊢
  split_ifs at h ⊢ with happ hident hroot
  · exact absurd rfl h
  · exact absurd rfl h
  · exact platform.canonicalize_idem _
  · exact userPathOf_canonical h

theorem fullPathOf_user {ident : Path} (h : isAppCommonPath path = false) :
    fullPathOf platform ident path = userPathOf platform path := by
  rw [fullPathOf, h, if_neg Bool.false_ne_true]

theorem fullPathOf_nil (h : isAppCommonPath path = true) : fullPathOf platform [] path = [] := by
  rw [fullPathOf, if_pos h, if_pos rfl]

theorem rootPath_user (path : CommonPath) : isAppCommonPath (rootPath path) = false := by
  cases path <;> rfl

/-- What was found is what would be found. -/
def Cached (platform : Platform) (fs : Filesystem) : Prop :=
  ∀ p, fs.fullPaths p = [] ∨ fs.fullPaths p = full platform fs p

/-- The full path of a path was found, and nothing else was done. -/
structure Refreshed (platform : Platform) (path : CommonPath) (fs fs' : Filesystem) : Prop where
  eq : fs' = { fs with fullPaths := fs'.fullPaths }
  cached : Cached platform fs'
  path : fs'.fullPaths path = full platform fs path
  kept : ∀ q, fs.fullPaths q ≠ [] → fs'.fullPaths q = fs.fullPaths q

theorem Refreshed.same (h : Cached platform fs)
    (hpath : fs.fullPaths path = full platform fs path) :
    Refreshed platform path fs fs := ⟨rfl, h, hpath, fun _ _ => rfl⟩

theorem Refreshed.set (h : Cached platform fs) (hnone : fs.fullPaths path = []) :
    Refreshed platform path fs (fs.setFullPath path (full platform fs path)) where
  eq := rfl
  cached p := by
    show (if p = path then _ else fs.fullPaths p) = [] ∨
      (if p = path then full platform fs path else fs.fullPaths p) = _
    split
    next hp =>
      rw [hp]
      exact .inr rfl
    · exact h p
  path := if_pos rfl
  kept q hq := by
    show (if q = path then _ else fs.fullPaths q) = _
    rw [if_neg]
    rintro rfl
    exact hq hnone

theorem Refreshed.trans {p : CommonPath} {fs' fs'' : Filesystem}
    (h : Refreshed platform p fs fs') (h' : Refreshed platform path fs' fs'') :
    Refreshed platform path fs fs'' where
  eq := by
    rw [h'.eq, h.eq]
  cached := h'.cached
  path := by
    rw [h'.path, h.eq]
  kept q hq := by
    rw [h'.kept q (by rw [h.kept q hq]; exact hq), h.kept q hq]

theorem getFullUserPath_spec (h : Cached platform fs) (huser : isAppCommonPath path = false) :
    (getFullUserPath platform path fs).1 = full platform fs path ∧
      Refreshed platform path fs (getFullUserPath platform path fs).2 := by
  have hfull : full platform fs path = userPathOf platform path := fullPathOf_user huser
  rw [getFullUserPath]
  split
  next hsome =>
    have hpath := (h path).resolve_left hsome
    exact ⟨hpath, .same h hpath⟩
  next hsome =>
    have hset := Refreshed.set h (not_not.mp hsome)
    rw [hfull] at hset ⊢
    exact ⟨rfl, hset⟩

theorem getFullCommonPath_spec (h : Cached platform fs) (path : CommonPath) :
    (getFullCommonPath platform path fs).1 = full platform fs path ∧
      Refreshed platform path fs (getFullCommonPath platform path fs).2 := by
  rw [getFullCommonPath]
  by_cases hsome : fs.fullPaths path ≠ []
  · rw [if_pos hsome]
    have hpath := (h path).resolve_left hsome
    exact ⟨hpath, .same h hpath⟩
  · have hnone := not_not.mp hsome
    rw [if_neg hsome]
    cases happ : isAppCommonPath path with
    | false =>
      exact getFullUserPath_spec h happ
    | true =>
      rw [if_pos rfl]
      by_cases hident : fs.saveIdentity = []
      · rw [if_pos hident]
        have hpath : fs.fullPaths path = full platform fs path := by
          rw [hnone, full, hident, fullPathOf_nil happ]
        exact ⟨hpath, .same h hpath⟩
      · rw [if_neg hident]
        obtain ⟨hroot, hrefreshed⟩ := getFullUserPath_spec h (rootPath_user path)
        have hother : path ≠ rootPath path := by
          intro heq
          have huser := rootPath_user path
          rw [← heq, happ] at huser
          cases huser
        have huser : full platform fs (rootPath path) = userPathOf platform (rootPath path) :=
          fullPathOf_user (rootPath_user path)
        generalize hr : getFullUserPath platform (rootPath path) fs = r at hroot hrefreshed
        -- finding the root path does not touch this one
        have hstill : r.2.fullPaths path = [] := by
          rw [← hr, getFullUserPath]
          split_ifs
          · exact hnone
          all_goals
            show (if path = rootPath path then _ else fs.fullPaths path) = []
            rw [if_neg hother, hnone]
        have hfull : full platform fs path = if r.1 = [] then [] else
            platform.canonicalizeRealPath
              (normalize false (r.1 ++ appSuffix platform fs.saveIdentity)) := by
          rw [full, fullPathOf, if_pos happ, if_neg hident, hroot, huser]
        have hident' : r.2.saveIdentity = fs.saveIdentity := by rw [hrefreshed.eq]
        dsimp only
        by_cases hempty : r.1 = []
        · rw [if_pos hempty]
          rw [if_pos hempty] at hfull
          refine ⟨by rw [hstill, hfull], hrefreshed.trans (.same hrefreshed.cached ?_)⟩
          rw [hstill, full, hident']
          exact hfull.symm
        · rw [if_neg hempty]
          rw [if_neg hempty] at hfull
          have hset := Refreshed.set hrefreshed.cached hstill
          rw [full, hident', ← full, hfull] at hset
          exact ⟨hfull.symm, hrefreshed.trans hset⟩

theorem getFullCommonPath_kept (h : fs.fullPaths path ≠ []) :
    getFullCommonPath platform path fs = (fs.fullPaths path, fs) := by
  rw [getFullCommonPath, if_pos h]

section Refreshed

variable {fs' : Filesystem} (h : Refreshed platform path fs fs')
include h

theorem Refreshed.saveIdentity : fs'.saveIdentity = fs.saveIdentity := by rw [h.eq]

theorem Refreshed.searchPath : fs'.searchPath = fs.searchPath := by rw [h.eq]

theorem Refreshed.mountInfo : fs'.commonPathMountInfo = fs.commonPathMountInfo := by rw [h.eq]

theorem Refreshed.needsMounting :
    fs'.saveDirectoryNeedsMounting = fs.saveDirectoryNeedsMounting := by rw [h.eq]

theorem Refreshed.full_eq (p : CommonPath) : full platform fs' p = full platform fs p := by
  rw [full, h.saveIdentity]

end Refreshed

/-! ## What is recorded -/

/-- What is mounted for a common path, and what is recorded of it. -/
structure Core (platform : Platform) (fs : Filesystem) : Prop where
  cached : Cached platform fs
  distinct : Distinct fs.searchPath
  owned : ∀ e ∈ fs.searchPath, ∀ p, e.mountedFor = some p →
    e.dirName = full platform fs p ∧ full platform fs p ≠ [] ∧
      (fs.commonPathMountInfo p).mounted = true ∧
      (e.forWriting = true ↔ (fs.commonPathMountInfo p).permissions = .readwrite)
  mounted : ∀ p, (fs.commonPathMountInfo p).mounted = true →
    ∃ e ∈ fs.searchPath, e.mountedFor = some p
  kept : ∀ p, (fs.commonPathMountInfo p).mounted = true → fs.fullPaths p ≠ []

theorem Core.refresh {fs' : Filesystem} (h : Core platform fs)
    (hr : Refreshed platform path fs fs') : Core platform fs' where
  cached := hr.cached
  distinct := by
    rw [hr.searchPath]
    exact h.distinct
  owned e he p hp := by
    rw [hr.searchPath] at he
    rw [hr.full_eq, hr.mountInfo]
    exact h.owned e he p hp
  mounted p hp := by
    rw [hr.mountInfo] at hp
    rw [hr.searchPath]
    exact h.mounted p hp
  kept p hp := by
    rw [hr.mountInfo] at hp
    rw [hr.kept p (h.kept p hp)]
    exact h.kept p hp

theorem Core.fullPaths_eq (h : Core platform fs)
    (hp : (fs.commonPathMountInfo path).mounted = true) :
    fs.fullPaths path = full platform fs path :=
  (h.cached path).resolve_left (h.kept path hp)

/-- What a path is mounted as. -/
def entryFor (platform : Platform) (fs : Filesystem) (path : CommonPath) (mountpoint : Option Path)
    (permissions : MountPermissions) : Entry :=
  ⟨full platform fs path, mountpoint.getD ['/'], permissions = .readwrite, some path⟩

/-- The state after a mount. -/
def afterMount (platform : Platform) (fs : Filesystem) (path : CommonPath)
    (mountpoint : Option Path) (permissions : MountPermissions) (append : Bool) : Filesystem :=
  { fs with
    searchPath :=
      if append = true then fs.searchPath ++ [entryFor platform fs path mountpoint permissions]
      else entryFor platform fs path mountpoint permissions :: fs.searchPath
    commonPathMountInfo := fun p =>
      if p = path then ⟨true, mountpoint.getD ['/'], permissions⟩ else fs.commonPathMountInfo p }

section Mount

variable {mountpoint : Option Path} {permissions : MountPermissions} {append createDir : Bool}

/-- What is in the way of a mount. -/
def Blocked (platform : Platform) (answers : Answers) (createDir : Bool) (path : CommonPath)
    (mountpoint : Option Path) (permissions : MountPermissions) (fs : Filesystem) : Prop :=
  full platform fs path = [] ∨
    (createDir = true ∧ isAppCommonPath path = true ∧
      answers.isRealDirectory (full platform fs path) = false ∧
      answers.createRealDirectory (full platform fs path) = false) ∨
    isMounted fs.searchPath (full platform fs path) = true ∨
    answers.opens (entryFor platform fs path mountpoint permissions) = false

theorem Core.mount (h : Core platform fs) (hfound : fs.fullPaths path = full platform fs path)
    (hsome : full platform fs path ≠ [])
    (hnew : isMounted fs.searchPath (full platform fs path) = false) :
    Core platform (afterMount platform fs path mountpoint permissions append) where
  cached := h.cached
  distinct := distinct_mounted h.distinct hnew
  owned e he p hp := by
    show _ ∧ _ ∧ (if p = path then _ else _ : CommonPathMountInfo).mounted = true ∧
      (_ ↔ (if p = path then _ else _ : CommonPathMountInfo).permissions = _)
    rcases mem_mounted.mp he with rfl | he
    · obtain rfl : path = p := Option.some.inj hp
      rw [if_pos rfl]
      exact ⟨rfl, hsome, rfl, decide_eq_true_iff⟩
    · have howned := h.owned e he p hp
      have hother : p ≠ path := by
        intro hpath
        rw [hpath] at howned
        exact isMounted_eq_false.mp hnew e he howned.1
      rw [if_neg hother]
      exact howned
  mounted p hp := by
    by_cases hpath : p = path
    · exact ⟨_, mem_mounted.mpr (.inl rfl), congrArg some hpath.symm⟩
    · have hp' : (if p = path then _ else fs.commonPathMountInfo p).mounted = true := hp
      rw [if_neg hpath] at hp'
      obtain ⟨e, he, hfor⟩ := h.mounted p hp'
      exact ⟨e, mem_mounted.mpr (.inr he), hfor⟩
  kept p hp := by
    by_cases hpath : p = path
    · show fs.fullPaths p ≠ []
      rw [hpath, hfound]
      exact hsome
    · have hp' : (if p = path then _ else fs.commonPathMountInfo p).mounted = true := hp
      rw [if_neg hpath] at hp'
      exact h.kept p hp'

variable {archive : Path} {mountedFor : Option CommonPath}

theorem mountFullPath_mounted
    (h : isMounted fs.searchPath (platform.canonicalizeRealPath archive) = true) :
    mountFullPath platform answers archive mountpoint permissions append mountedFor fs =
      (false, fs) := by
  rw [mountFullPath, if_pos h]

theorem mountFullPath_new (hcanon : platform.canonicalizeRealPath archive = archive)
    (h : isMounted fs.searchPath archive = false) (new : Entry)
    (hentry : new = ⟨archive, mountpoint.getD ['/'], permissions = .readwrite, mountedFor⟩) :
    mountFullPath platform answers archive mountpoint permissions append mountedFor fs =
      if answers.opens new = true then
        (true, { fs with
          searchPath := if append = true then fs.searchPath ++ [new] else new :: fs.searchPath })
      else (false, fs) := by
  have hname : new.dirName = archive := by rw [hentry]
  rw [mountFullPath, hcanon, h, if_neg Bool.false_ne_true, ← hentry, physfsMount, hname, h,
    if_neg Bool.false_ne_true]
  cases answers.opens new <;> rfl

/-- `mountCommonPathInternal`: either something is in the way, or the path is mounted. -/
theorem mountCommonPathInternal_cases (h : Core platform fs) (path : CommonPath)
    (mountpoint : Option Path) (permissions : MountPermissions) (append createDir : Bool) :
    ∃ fs', Refreshed platform path fs fs' ∧
      (Blocked platform answers createDir path mountpoint permissions fs ∧
        mountCommonPathInternal platform answers path mountpoint permissions append createDir fs =
          (false, fs') ∨
      ¬ Blocked platform answers createDir path mountpoint permissions fs ∧
        mountCommonPathInternal platform answers path mountpoint permissions append createDir fs =
          (true, afterMount platform fs' path mountpoint permissions append) ∧
        Core platform (afterMount platform fs' path mountpoint permissions append)) := by
  obtain ⟨hfull, hrefreshed⟩ := getFullCommonPath_spec h.cached path
  generalize hr : getFullCommonPath platform path fs = r at hfull hrefreshed
  refine ⟨r.2, hrefreshed, ?_⟩
  have hcore := h.refresh hrefreshed
  have hentry : entryFor platform r.2 path mountpoint permissions =
      entryFor platform fs path mountpoint permissions := by
    rw [entryFor, entryFor, hrefreshed.full_eq]
  rw [mountCommonPathInternal, hr, hfull]
  split
  next hempty =>
    exact .inl ⟨.inl hempty, rfl⟩
  next hempty =>
    by_cases hcreate : createDir = true ∧ isAppCommonPath path = true ∧
        answers.isRealDirectory (full platform fs path) = false ∧
        answers.createRealDirectory (full platform fs path) = false
    · rw [if_pos hcreate]
      exact .inl ⟨.inr (.inl hcreate), rfl⟩
    · rw [if_neg hcreate]
      cases hmounted : isMounted fs.searchPath (full platform fs path) with
      | true =>
        rw [mountFullPath_mounted (by
          rw [fullPathOf_canonical hempty, hrefreshed.searchPath]
          exact hmounted), if_neg Bool.false_ne_true]
        exact .inl ⟨.inr (.inr (.inl hmounted)), rfl⟩
      | false =>
        have hnew : isMounted r.2.searchPath (full platform fs path) = false := by
          rw [hrefreshed.searchPath]
          exact hmounted
        rw [mountFullPath_new (fullPathOf_canonical hempty) hnew
          (entryFor platform fs path mountpoint permissions) rfl]
        cases hopens : answers.opens (entryFor platform fs path mountpoint permissions) with
        | true =>
          refine .inr ⟨?_, ?_, hcore.mount ?_ ?_ ?_⟩
          · rintro (h | h | h | h)
            · exact hempty h
            · exact hcreate h
            · rw [hmounted] at h
              cases h
            · rw [hopens] at h
              cases h
          · rw [if_pos rfl, if_pos rfl, afterMount, setMountInfo, hentry]
          · rw [hrefreshed.path, hrefreshed.full_eq]
          · rw [hrefreshed.full_eq]
            exact hempty
          · rw [hrefreshed.full_eq]
            exact hnew
        | false =>
          exact .inl ⟨.inr (.inr (.inr hopens)), rfl⟩

end Mount

/-- The state after an unmount. -/
def afterUnmount (platform : Platform) (fs : Filesystem) (path : CommonPath) : Filesystem :=
  { fs with
    searchPath := fs.searchPath.eraseP fun e => e.dirName = full platform fs path
    commonPathMountInfo := fun p =>
      if p = path then { fs.commonPathMountInfo path with mounted := false }
      else fs.commonPathMountInfo p }

/-- What is mounted where the path is, is not mounted for another one. -/
def Unshared (platform : Platform) (fs : Filesystem) (path : CommonPath) : Prop :=
  ∀ e ∈ fs.searchPath, e.dirName = full platform fs path →
    ∀ q, e.mountedFor = some q → q = path

theorem Core.unshared (h : Core platform fs) (hp : (fs.commonPathMountInfo path).mounted = true) :
    Unshared platform fs path := by
  intro e he hname q hq
  obtain ⟨f, hf, hfor⟩ := h.mounted path hp
  have hsame := h.distinct.eq he hf (by rw [hname, (h.owned f hf path hfor).1])
  rw [hsame, hfor] at hq
  exact (Option.some.inj hq).symm

theorem Core.unmount (h : Core platform fs) (hshared : Unshared platform fs path) :
    Core platform (afterUnmount platform fs path) where
  cached := h.cached
  distinct := distinct_unmounted h.distinct
  owned e he p hp := by
    obtain ⟨he, hname⟩ := (mem_unmounted h.distinct).mp he
    have howned := h.owned e he p hp
    have hother : p ≠ path := by
      rintro rfl
      exact hname howned.1
    show _ ∧ _ ∧ (if p = path then _ else _ : CommonPathMountInfo).mounted = true ∧
      (_ ↔ (if p = path then _ else _ : CommonPathMountInfo).permissions = _)
    rw [if_neg hother]
    exact howned
  mounted p hp := by
    have hp' : (if p = path then { fs.commonPathMountInfo path with mounted := false }
      else fs.commonPathMountInfo p).mounted = true := hp
    split at hp'
    · cases hp'
    next hpath =>
      obtain ⟨e, he, hfor⟩ := h.mounted p hp'
      exact ⟨e, (mem_unmounted h.distinct).mpr
        ⟨he, fun hname => hpath (hshared e he hname p hfor)⟩, hfor⟩
  kept p hp := by
    have hp' : (if p = path then { fs.commonPathMountInfo path with mounted := false }
      else fs.commonPathMountInfo p).mounted = true := hp
    split at hp'
    · cases hp'
    · exact h.kept p hp'

/-- `unmount`: either the path is not mounted, or is used, or it is unmounted. -/
theorem unmount_cases (h : Core platform fs) (path : CommonPath) :
    ∃ fs', Refreshed platform path fs fs' ∧
      ((full platform fs path = [] ∨
          canUnmount answers fs.searchPath (full platform fs path) = false) ∧
        unmount platform answers path fs = (false, fs') ∨
      canUnmount answers fs.searchPath (full platform fs path) = true ∧
        unmount platform answers path fs = (true, afterUnmount platform fs' path)) := by
  obtain ⟨hfull, hrefreshed⟩ := getFullCommonPath_spec h.cached path
  generalize hr : getFullCommonPath platform path fs = r at hfull hrefreshed
  refine ⟨r.2, hrefreshed, ?_⟩
  rw [Filesystem.unmount, hr, hfull]
  by_cases hempty : full platform fs path = []
  · rw [if_pos hempty]
    exact .inl ⟨.inl hempty, rfl⟩
  · rw [if_neg hempty, unmountFullPath, fullPathOf_canonical hempty, physfsUnmount,
      hrefreshed.searchPath]
    cases hcan : canUnmount answers fs.searchPath (full platform fs path) with
    | true =>
      refine .inr ⟨rfl, ?_⟩
      rw [if_pos rfl, if_pos rfl, afterUnmount, setMountInfo, hrefreshed.full_eq,
        hrefreshed.searchPath]
    | false =>
      refine .inl ⟨.inr rfl, ?_⟩
      rw [if_neg Bool.false_ne_true, if_neg Bool.false_ne_true, ← hrefreshed.searchPath]

theorem Core.canUnmount (h : Core platform fs) (hp : (fs.commonPathMountInfo path).mounted = true)
    (hfree : answers.inUse (full platform fs path) = false) :
    Physfs.canUnmount answers fs.searchPath (full platform fs path) = true := by
  obtain ⟨e, he, hfor⟩ := h.mounted path hp
  rw [Physfs.canUnmount, isMounted_iff.mpr ⟨e, he, (h.owned e he path hfor).1⟩, hfree]
  rfl

/-! ## A new identity -/

/-- `validate` changes nothing, and where it is content, none of the paths is used. -/
theorem validate_spec (h : Core platform fs) (paths : List CommonPath) :
    (validate platform answers paths fs).2 = fs ∧
      ((validate platform answers paths fs).1 = true → ∀ p ∈ paths,
        (fs.commonPathMountInfo p).mounted = true →
          answers.inUse (full platform fs p) = false) := by
  induction paths with
  | nil => exact ⟨rfl, fun _ p hp => absurd hp (List.not_mem_nil)⟩
  | cons path rest ih =>
    rw [validate]
    cases hmounted : (fs.commonPathMountInfo path).mounted with
    | false =>
      refine ⟨ih.1, fun hvalid p hp hm => ?_⟩
      rcases List.mem_cons.mp hp with rfl | hp
      · rw [hmounted] at hm
        cases hm
      · exact ih.2 hvalid p hp hm
    | true =>
      have hpath := h.fullPaths_eq hmounted
      have hsome := h.kept path hmounted
      have hcanon : platform.canonicalizeRealPath (fs.fullPaths path) = fs.fullPaths path := by
        rw [hpath] at hsome ⊢
        exact fullPathOf_canonical hsome
      rw [if_neg (Bool.true_eq_false ▸ id), getFullCommonPath_kept hsome]
      dsimp only
      rw [hcanon]
      by_cases hcannot : fs.fullPaths path ≠ [] ∧
          Physfs.canUnmount answers fs.searchPath (fs.fullPaths path) = false
      · rw [if_pos hcannot]
        exact ⟨rfl, fun h => absurd h Bool.false_ne_true⟩
      · rw [if_neg hcannot]
        refine ⟨ih.1, fun hvalid p hp hm => ?_⟩
        rcases List.mem_cons.mp hp with rfl | hp
        · have hcan : Physfs.canUnmount answers fs.searchPath (fs.fullPaths p) = true :=
            Bool.not_eq_false _ ▸ fun h => hcannot ⟨hsome, h⟩
          rw [Physfs.canUnmount, Bool.and_eq_true, Bool.not_eq_true', hpath] at hcan
          exact hcan.2
        · exact ih.2 hvalid p hp hm

/-- What `unmountAll` leaves. -/
structure Unmounted (platform : Platform) (paths : List CommonPath) (fs fs' : Filesystem) :
    Prop where
  core : Core platform fs'
  unmounted : ∀ p ∈ paths, (fs'.commonPathMountInfo p).mounted = false
  monotone : ∀ p, (fs'.commonPathMountInfo p).mounted = true →
    (fs.commonPathMountInfo p).mounted = true

theorem unmountAll_spec (h : Core platform fs) (paths : List CommonPath)
    (hfree : ∀ p ∈ paths, (fs.commonPathMountInfo p).mounted = true →
      answers.inUse (full platform fs p) = false) :
    Unmounted platform paths fs (unmountAll platform answers paths fs).2 := by
  induction paths generalizing fs with
  | nil => exact ⟨h, fun p hp => absurd hp List.not_mem_nil, fun _ hp => hp⟩
  | cons path rest ih =>
    rw [unmountAll]
    cases hmounted : (fs.commonPathMountInfo path).mounted with
    | false =>
      have hrest := ih h fun p hp => hfree p (List.mem_cons_of_mem _ hp)
      refine ⟨hrest.core, fun p hp => ?_, hrest.monotone⟩
      rcases List.mem_cons.mp hp with rfl | hp
      · by_contra hm
        rw [hrest.monotone p (Bool.not_eq_false _ ▸ hm)] at hmounted
        cases hmounted
      · exact hrest.unmounted p hp
    | true =>
      have hcan := h.canUnmount hmounted (hfree path List.mem_cons_self hmounted)
      obtain ⟨fs', hrefreshed, ⟨hblocked | hblocked, -⟩ | ⟨-, hresult⟩⟩ :=
        @unmount_cases platform answers fs h path
      · obtain ⟨e, he, hfor⟩ := h.mounted path hmounted
        exact absurd hblocked (h.owned e he path hfor).2.1
      · rw [hcan] at hblocked
        cases hblocked
      · rw [hresult]
        have hshared : Unshared platform fs' path := by
          refine (h.refresh hrefreshed).unshared ?_
          rw [hrefreshed.mountInfo]
          exact hmounted
        have hcore := (h.refresh hrefreshed).unmount hshared
        have hflags : ∀ p, ((afterUnmount platform fs' path).commonPathMountInfo p).mounted = true →
            p ≠ path ∧ (fs.commonPathMountInfo p).mounted = true := by
          intro p hp
          have hp' : (if p = path then { fs'.commonPathMountInfo path with mounted := false }
            else fs'.commonPathMountInfo p).mounted = true := hp
          split at hp'
          · cases hp'
          next hpath =>
            rw [hrefreshed.mountInfo] at hp'
            exact ⟨hpath, hp'⟩
        have hrest := ih hcore fun p hp hm => by
          have hsame : full platform (afterUnmount platform fs' path) p = full platform fs p :=
            hrefreshed.full_eq p
          rw [hsame]
          exact hfree p (List.mem_cons_of_mem _ hp) (hflags p hm).2
        refine ⟨hrest.core, fun p hp => ?_, fun p hp => (hflags p (hrest.monotone p hp)).2⟩
        rcases List.mem_cons.mp hp with rfl | hp
        · by_contra hm
          exact (hflags p (hrest.monotone p (Bool.not_eq_false _ ▸ hm))).1 rfl
        · exact hrest.unmounted p hp

theorem Core.identify (h : Core platform fs)
    (hnone : ∀ p, isAppCommonPath p = true → (fs.commonPathMountInfo p).mounted = false)
    (ident : Path) (append : Bool) : Core platform (fs.identify ident append) := by
  have huser : ∀ p, (fs.commonPathMountInfo p).mounted = true → isAppCommonPath p = false := by
    intro p hp
    by_contra happ
    rw [hnone p (Bool.not_eq_false _ ▸ happ)] at hp
    cases hp
  have hpaths : ∀ p, (fs.identify ident append).fullPaths p =
      if isAppCommonPath p = true then [] else fs.fullPaths p := fun _ => rfl
  have hsame : ∀ p, isAppCommonPath p = false →
      full platform (fs.identify ident append) p = full platform fs p := by
    intro p hp
    rw [full, full, fullPathOf_user hp, fullPathOf_user hp]
  constructor
  · intro p
    rw [hpaths]
    split
    · exact .inl rfl
    next happ =>
      rw [hsame p (Bool.not_eq_true _ ▸ happ)]
      exact h.cached p
  · exact h.distinct
  · intro e he p hp
    have howned := h.owned e he p hp
    rw [hsame p (huser p howned.2.2.1)]
    exact howned
  · exact h.mounted
  · intro p hp
    rw [hpaths, huser p hp, if_neg Bool.false_ne_true]
    exact h.kept p hp

/-- What mounts of other paths leave of the save directory. -/
structure Beside (fs fs' : Filesystem) : Prop where
  saveIdentity : fs'.saveIdentity = fs.saveIdentity
  needsMounting : fs'.saveDirectoryNeedsMounting = fs.saveDirectoryNeedsMounting
  mountInfo : fs'.commonPathMountInfo .appSavedir = fs.commonPathMountInfo .appSavedir

theorem mount_beside (h : Core platform fs) {path : CommonPath} (hpath : path ≠ .appSavedir)
    (mountpoint : Option Path) (permissions : MountPermissions) (append createDir : Bool) :
    Core platform (mountCommonPathInternal platform answers path mountpoint permissions append
        createDir fs).2 ∧
      Beside fs (mountCommonPathInternal platform answers path mountpoint permissions append
        createDir fs).2 := by
  obtain ⟨fs', hrefreshed, ⟨-, hresult⟩ | ⟨-, hresult, hcore⟩⟩ :=
    @mountCommonPathInternal_cases platform answers fs h path mountpoint permissions append
      createDir
  · rw [hresult]
    exact ⟨h.refresh hrefreshed, hrefreshed.saveIdentity, hrefreshed.needsMounting,
      by rw [hrefreshed.mountInfo]⟩
  · rw [hresult]
    refine ⟨hcore, hrefreshed.saveIdentity, hrefreshed.needsMounting, ?_⟩
    show (if .appSavedir = path then _ else fs'.commonPathMountInfo _) = _
    rw [if_neg hpath.symm, hrefreshed.mountInfo]

theorem remountAll_spec (h : Core platform fs) (old : List CommonPath) (append : Bool)
    (paths : List CommonPath) :
    Core platform (remountAll platform answers old append paths fs) ∧
      Beside fs (remountAll platform answers old append paths fs) := by
  induction paths generalizing fs with
  | nil => exact ⟨h, rfl, rfl, rfl⟩
  | cons path rest ih =>
    rw [remountAll]
    split_ifs with hold
    · obtain ⟨hcore, hbeside⟩ := @mount_beside platform answers fs h path hold.2
        (some (fs.commonPathMountInfo path).mountPoint) (fs.commonPathMountInfo path).permissions
        append true
      obtain ⟨hcore', hbeside'⟩ := ih hcore
      exact ⟨hcore', hbeside'.saveIdentity.trans hbeside.saveIdentity,
        hbeside'.needsMounting.trans hbeside.needsMounting,
        hbeside'.mountInfo.trans hbeside.mountInfo⟩
    · exact ih h

/-! ## The save directory -/

/-- The records are right, and it is known whether the save directory is mounted. -/
structure Inv (platform : Platform) (fs : Filesystem) : Prop where
  core : Core platform fs
  needs : fs.saveIdentity ≠ [] → (fs.saveDirectoryNeedsMounting = true ↔
    (fs.commonPathMountInfo .appSavedir).mounted = false)
  readwrite : (fs.commonPathMountInfo .appSavedir).mounted = true →
    (fs.commonPathMountInfo .appSavedir).permissions = .readwrite

theorem Inv.of_beside {fs' : Filesystem} (h : Inv platform fs) (hcore : Core platform fs')
    (hbeside : Beside fs fs') : Inv platform fs' where
  core := hcore
  needs hident := by
    rw [hbeside.saveIdentity] at hident
    rw [hbeside.needsMounting, hbeside.mountInfo]
    exact h.needs hident
  readwrite hm := by
    rw [hbeside.mountInfo] at hm ⊢
    exact h.readwrite hm

theorem Inv.refresh {fs' : Filesystem} (h : Inv platform fs)
    (hr : Refreshed platform path fs fs') : Inv platform fs' :=
  h.of_beside (h.core.refresh hr) ⟨hr.saveIdentity, hr.needsMounting, by rw [hr.mountInfo]⟩

/-- The save directory is mounted, by `setIdentity` or `setupWriteDirectory`. -/
theorem Core.inv_mount {fs' : Filesystem} {append : Bool}
    (h : Core platform (afterMount platform fs' .appSavedir none .readwrite append)) :
    Inv platform { afterMount platform fs' .appSavedir none .readwrite append with
      saveDirectoryNeedsMounting := false } where
  core := ⟨h.cached, h.distinct, h.owned, h.mounted, h.kept⟩
  needs _ := iff_of_false Bool.false_ne_true (show true ≠ false by decide)
  readwrite _ := rfl

/-- What is in the way of the save directory: it has no place, it cannot be created, its place is
taken, or it cannot be mounted. -/
def CannotMount (platform : Platform) (answers : Answers) (fs : Filesystem) : Prop :=
  full platform fs .appSavedir = [] ∨
    (answers.isRealDirectory (full platform fs .appSavedir) = false ∧
      answers.createRealDirectory (full platform fs .appSavedir) = false) ∨
    (∃ e ∈ fs.searchPath, e.dirName = full platform fs .appSavedir ∧
      e.mountedFor ≠ some .appSavedir) ∨
    answers.opens (entryFor platform fs .appSavedir none .readwrite) = false

/-- The save directory is mounted read-write. -/
def SaveDirectoryMounted (platform : Platform) (fs : Filesystem) : Prop :=
  ∃ e ∈ fs.searchPath, e.dirName = full platform fs .appSavedir ∧ e.forWriting = true

theorem Inv.setIdentity (h : Inv platform fs) (ident : Option Path) (append : Bool) :
    Inv platform (setIdentity platform answers ident append fs).2 ∧
      ((setIdentity platform answers ident append fs).1 = false →
        (setIdentity platform answers ident append fs).2 = fs) := by
  cases ident with
  | none => exact ⟨h, fun _ => rfl⟩
  | some ident =>
    rw [Filesystem.setIdentity]
    by_cases hempty : ident = []
    · rw [if_pos hempty]
      exact ⟨h, fun _ => rfl⟩
    · rw [if_neg hempty]
      obtain ⟨hsame, hfree⟩ := @validate_spec platform answers fs h.core appCommonPaths
      dsimp only
      cases hvalid : (validate platform answers appCommonPaths fs).1 with
      | false =>
        rw [if_pos rfl, hsame]
        exact ⟨h, fun _ => rfl⟩
      | true =>
        rw [if_neg (by decide), hsame]
        refine ⟨?_, fun h => absurd h (show ¬ true = false by decide)⟩
        have hunmounted := unmountAll_spec h.core appCommonPaths (hfree hvalid)
        generalize unmountAll platform answers appCommonPaths fs = u at hunmounted
        have hnamed := hunmounted.core.identify
          (fun p hp => hunmounted.unmounted p (of_decide_eq_true hp)) ident append
        have hflag : ((u.2.identify ident append).commonPathMountInfo .appSavedir).mounted =
            false := hunmounted.unmounted _ (by decide)
        generalize u.2.identify ident append = v at hnamed hflag
        -- mounted now, or needed later
        have hinv : Inv platform
            { (mountCommonPathInternal platform answers .appSavedir none .readwrite append
                false v).2 with
              saveDirectoryNeedsMounting := !(mountCommonPathInternal platform answers .appSavedir
                none .readwrite append false v).1 } := by
          obtain ⟨v', hrefreshed, ⟨-, hresult⟩ | ⟨-, hresult, hcore⟩⟩ :=
            @mountCommonPathInternal_cases platform answers v hnamed .appSavedir none .readwrite
              append false
          · rw [hresult]
            have hcore := hnamed.refresh hrefreshed
            have hflag' : (v'.commonPathMountInfo .appSavedir).mounted = false := by
              rw [hrefreshed.mountInfo]
              exact hflag
            refine ⟨⟨hcore.cached, hcore.distinct, hcore.owned, hcore.mounted, hcore.kept⟩,
              fun _ => iff_of_true rfl hflag', fun hm => ?_⟩
            rw [show _ = true from hm] at hflag'
            cases hflag'
          · rw [hresult]
            exact hcore.inv_mount
        exact hinv.of_beside (remountAll_spec hinv.core u.1 append appCommonPaths).1
          (remountAll_spec hinv.core u.1 append appCommonPaths).2

/-- `setupWriteDirectory`, once there is an identity: what it answers is right. -/
theorem Inv.setupWriteDirectory (h : Inv platform fs) (hident : fs.saveIdentity ≠ []) :
    Inv platform (setupWriteDirectory platform answers fs).2 ∧
      ((setupWriteDirectory platform answers fs).1 = true →
        SaveDirectoryMounted platform (setupWriteDirectory platform answers fs).2) ∧
      ((setupWriteDirectory platform answers fs).1 = false →
        CannotMount platform answers fs) := by
  have hneeds := h.needs hident
  rw [Filesystem.setupWriteDirectory]
  cases hflag : fs.saveDirectoryNeedsMounting with
  | false =>
    refine ⟨h, fun _ => ?_, fun h => absurd h (show ¬ true = false by decide)⟩
    have hmounted : (fs.commonPathMountInfo .appSavedir).mounted = true := by
      by_contra hnot
      rw [hneeds.mpr (Bool.not_eq_true _ ▸ hnot)] at hflag
      cases hflag
    obtain ⟨e, he, hfor⟩ := h.core.mounted _ hmounted
    obtain ⟨hname, -, -, hwriting⟩ := h.core.owned e he _ hfor
    exact ⟨e, he, hname, hwriting.mpr (h.readwrite hmounted)⟩
  | true =>
    rw [if_neg (by decide), if_neg hident]
    obtain ⟨fs', hrefreshed, ⟨hblocked, hresult⟩ | ⟨-, hresult, hcore⟩⟩ :=
      @mountCommonPathInternal_cases platform answers fs h.core .appSavedir none .readwrite
        fs.appendIdentityToPath true
    · rw [hresult, if_pos rfl]
      refine ⟨h.refresh hrefreshed, fun h => absurd h Bool.false_ne_true, fun _ => ?_⟩
      rcases hblocked with hnone | ⟨-, -, hcreate⟩ | hmounted | hopens
      · exact .inl hnone
      · exact .inr (.inl hcreate)
      · obtain ⟨e, he, hname⟩ := isMounted_iff.mp hmounted
        refine .inr (.inr (.inl ⟨e, he, hname, fun hfor => ?_⟩))
        -- it is not mounted for the save directory, which would be known
        have hknown := (h.core.owned e he _ hfor).2.2.1
        rw [hneeds.mp hflag] at hknown
        cases hknown
      · exact .inr (.inr (.inr hopens))
    · rw [hresult, if_neg (show ¬ true = false by decide)]
      refine ⟨hcore.inv_mount, fun _ => ?_, fun h => absurd h (show ¬ true = false by decide)⟩
      exact ⟨_, mem_mounted.mpr (.inl rfl), rfl, rfl⟩

/-! ## Runs -/

/-- The calls that keep the records. -/
def Proper (platform : Platform) (fs : Filesystem) (call : Answers × Operation) : Prop :=
  match call.2 with
  | .setIdentity _ _ => True
  | .mountCommonPath path mountpoint permissions _ =>
    path = .appSavedir → Blocked platform call.1 true path mountpoint permissions fs
  | .unmount path =>
    canUnmount call.1 fs.searchPath (full platform fs path) = true →
      ∀ e ∈ fs.searchPath, e.dirName = full platform fs path →
        ∀ q, e.mountedFor = some q → q = path ∧ q ≠ .appSavedir
  | .unmountFullPath fullpath =>
    canUnmount call.1 fs.searchPath (platform.canonicalizeRealPath fullpath) = true →
      ∀ e ∈ fs.searchPath, e.dirName = platform.canonicalizeRealPath fullpath →
        e.mountedFor = none
  | .setupWriteDirectory => fs.saveIdentity ≠ []

/-- The calls, from what the constructor leaves. -/
def calls (platform : Platform) : System Filesystem (Answers × Operation) where
  init := Initial
  step fs call fs' := (call.2.apply platform call.1 fs).2 = fs'

/-- The records are right, and the answers of calls. -/
structure Bookkept (platform : Platform) (fs : Filesystem) : Prop where
  mounted_iff : ∀ p, (fs.commonPathMountInfo p).mounted = true ↔
    ∃ e ∈ fs.searchPath, e.dirName = full platform fs p ∧ e.mountedFor = some p
  setup_true : ∀ answers, Proper platform fs (answers, .setupWriteDirectory) →
    (setupWriteDirectory platform answers fs).1 = true →
      SaveDirectoryMounted platform (setupWriteDirectory platform answers fs).2
  setup_false : ∀ answers, Proper platform fs (answers, .setupWriteDirectory) →
    (setupWriteDirectory platform answers fs).1 = false → CannotMount platform answers fs
  setIdentity_false : ∀ answers ident append,
    (setIdentity platform answers ident append fs).1 = false →
      (setIdentity platform answers ident append fs).2 = fs

theorem Initial.inv (h : Initial fs) : Inv platform fs where
  core :=
    { cached := fun p => .inl (h.fullPaths p)
      distinct := h.searchPath.1
      owned := fun e he p hp => by
        rw [h.searchPath.2 e he] at hp
        cases hp
      mounted := fun p hp => by
        rw [h.mounted p] at hp
        cases hp
      kept := fun p hp => by
        rw [h.mounted p] at hp
        cases hp }
  needs hident := absurd h.saveIdentity hident
  readwrite hm := by
    rw [h.mounted] at hm
    cases hm

theorem Inv.unmount (h : Inv platform fs) (hproper : Proper platform fs (answers, .unmount path)) :
    Inv platform (unmount platform answers path fs).2 := by
  obtain ⟨fs', hrefreshed, ⟨-, hresult⟩ | ⟨hcan, hresult⟩⟩ :=
    @unmount_cases platform answers fs h.core path
  · rw [hresult]
    exact h.refresh hrefreshed
  · rw [hresult]
    have hthere := hproper hcan
    have hshared : Unshared platform fs' path := by
      intro e he hname q hq
      rw [hrefreshed.searchPath] at he
      rw [hrefreshed.full_eq] at hname
      exact (hthere e he hname q hq).1
    have hcore := (h.core.refresh hrefreshed).unmount hshared
    have hinv := h.refresh hrefreshed
    have hflags : ∀ p, (afterUnmount platform fs' path).commonPathMountInfo p =
        if p = path then { fs'.commonPathMountInfo path with mounted := false }
        else fs'.commonPathMountInfo p := fun _ => rfl
    by_cases hpath : path = .appSavedir
    · -- it was not mounted: what was there would be mounted for it
      have hnot : (fs'.commonPathMountInfo path).mounted = false := by
        by_contra hm
        rw [hrefreshed.mountInfo] at hm
        obtain ⟨e, he, hfor⟩ := h.core.mounted path (Bool.not_eq_false _ ▸ hm)
        exact (hthere e he (h.core.owned e he path hfor).1 path hfor).2 hpath
      refine ⟨hcore, fun hident => ?_, fun hm => ?_⟩
      · rw [hflags, if_pos hpath.symm]
        rw [hpath] at hnot
        exact iff_of_true ((hinv.needs hident).mpr hnot) rfl
      · rw [hflags, if_pos hpath.symm] at hm
        cases hm
    · exact hinv.of_beside hcore ⟨rfl, rfl, by rw [hflags, if_neg (Ne.symm hpath)]⟩

theorem Inv.unmountFullPath (h : Inv platform fs) {fullpath : Path}
    (hproper : Proper platform fs (answers, .unmountFullPath fullpath)) :
    Inv platform (unmountFullPath platform answers fullpath fs).2 := by
  rw [Filesystem.unmountFullPath, physfsUnmount]
  cases hcan : Physfs.canUnmount answers fs.searchPath (platform.canonicalizeRealPath fullpath) with
  | false =>
    exact h
  | true =>
    have hfree := hproper hcan
    refine h.of_beside ⟨h.core.cached, distinct_unmounted h.core.distinct, ?_, ?_, h.core.kept⟩
      ⟨rfl, rfl, rfl⟩
    · intro e he p hp
      exact h.core.owned e ((mem_unmounted h.core.distinct).mp he).1 p hp
    · intro p hp
      obtain ⟨e, he, hfor⟩ := h.core.mounted p hp
      refine ⟨e, (mem_unmounted h.core.distinct).mpr ⟨he, fun hname => ?_⟩, hfor⟩
      rw [hfree e he hname] at hfor
      cases hfor

theorem Inv.mountCommonPath (h : Inv platform fs) {mountpoint : Option Path}
    {permissions : MountPermissions} {append : Bool}
    (hproper : Proper platform fs
      (answers, .mountCommonPath path mountpoint permissions append)) :
    Inv platform (mountCommonPath platform answers path mountpoint permissions append fs).2 := by
  rw [Filesystem.mountCommonPath]
  by_cases hpath : path = .appSavedir
  · obtain ⟨fs', hrefreshed, ⟨-, hresult⟩ | ⟨hnot, -, -⟩⟩ :=
      @mountCommonPathInternal_cases platform answers fs h.core path mountpoint permissions append
        true
    · rw [hresult]
      exact h.refresh hrefreshed
    · exact absurd (hproper hpath) hnot
  · obtain ⟨hcore, hbeside⟩ := @mount_beside platform answers fs h.core path hpath mountpoint
      permissions append true
    exact h.of_beside hcore hbeside

theorem Inv.step (h : Inv platform fs) {call : Answers × Operation} {fs' : Filesystem}
    (hproper : Proper platform fs call) (hstep : (calls platform).step fs call fs') :
    Inv platform fs' := by
  obtain ⟨answers, operation⟩ := call
  obtain rfl : _ = fs' := hstep
  cases operation with
  | setIdentity ident append => exact (h.setIdentity ident append).1
  | mountCommonPath path mountpoint permissions append => exact h.mountCommonPath hproper
  | unmount path => exact h.unmount hproper
  | unmountFullPath fullpath => exact h.unmountFullPath hproper
  | setupWriteDirectory => exact (h.setupWriteDirectory hproper).1

theorem Inv.bookkept (h : Inv platform fs) : Bookkept platform fs where
  mounted_iff p := by
    constructor
    · intro hm
      obtain ⟨e, he, hfor⟩ := h.core.mounted p hm
      exact ⟨e, he, (h.core.owned e he p hfor).1, hfor⟩
    · rintro ⟨e, he, -, hfor⟩
      exact (h.core.owned e he p hfor).2.2.1
  setup_true _ hproper := (h.setupWriteDirectory hproper).2.1
  setup_false _ hproper := (h.setupWriteDirectory hproper).2.2
  setIdentity_false _ ident append := (h.setIdentity ident append).2

/-- **In every run of such calls** the records are right, and what `setupWriteDirectory` and
`setIdentity` answer. -/
theorem bookkept_of_reachable
    (h : ((calls platform).restrict (Proper platform)).Reachable fs) : Bookkept platform fs :=
  (System.Reachable.invariant_restrict (fun _ hinit => Initial.inv hinit)
    (fun _ _ _ hinv hproper hstep => hinv.step hproper hstep) h).bookkept

/-! ## One identity -/

/-- A system where paths are as they are, with one directory for the data of applications. -/
def plain : Platform where
  fused := false
  appdataFolder := ['l']
  userPath p := if p = .userAppdata then ['/', 'd'] else []
  canonicalizeRealPath path := path
  canonicalize_idem _ := rfl

/-- All directories are there, and can be mounted; nothing is used. -/
def agreeable : Answers := ⟨fun _ => true, fun _ => true, fun _ => true, fun _ => false⟩

/-- What the constructor leaves, with nothing mounted. -/
def constructed : Filesystem :=
  ⟨[], false, fun _ => [], fun _ => ⟨false, [], .read⟩, false, []⟩

theorem constructed_initial : Initial constructed :=
  ⟨rfl, fun _ => rfl, fun _ => rfl, fun _ => rfl, rfl, List.nodup_nil, fun _ he =>
    absurd he List.not_mem_nil⟩

def identified : Filesystem := (setIdentity plain agreeable (some ['g']) false constructed).2

theorem bookkept_identified : Bookkept plain identified :=
  have hproper : Proper plain constructed (agreeable, .setIdentity (some ['g']) false) := trivial
  bookkept_of_reachable (.step (.init constructed_initial) ⟨hproper, rfl⟩)

/-- The full path of the save directory is unmounted with `unmountFullPath`: it is still recorded
as mounted, and `setupWriteDirectory` succeeds. -/
theorem not_bookkept_unmountFullPath :
    (calls plain).Reachable
        (unmountFullPath plain agreeable ['/', 'd', '/', 'l', '/', 'g'] identified).2 ∧
      ¬ Bookkept plain
        (unmountFullPath plain agreeable ['/', 'd', '/', 'l', '/', 'g'] identified).2 := by
  constructor
  · refine .step (e := (agreeable, .unmountFullPath ['/', 'd', '/', 'l', '/', 'g']))
      (.step (e := (agreeable, .setIdentity (some ['g']) false)) (.init constructed_initial) rfl) ?_
    rfl
  · intro h
    obtain ⟨e, he, -⟩ := (h.mounted_iff .appSavedir).mp (by decide)
    have hnone : (unmountFullPath plain agreeable ['/', 'd', '/', 'l', '/', 'g']
        identified).2.searchPath = [] := by decide
    exact absurd he List.not_mem_nil

end Lhatove.Physfs.Filesystem
