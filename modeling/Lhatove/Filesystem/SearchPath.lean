import Mathlib.Tactic

/-!
# The search path

The search path of PhysFS, as `love::filesystem::physfs::Filesystem` uses it.

- An entry says for which common path it was mounted, if it was: this is not data of PhysFS.
- What the system answers in a call is an argument: whether there are directories, whether they
  can be created, whether what is mounted can be opened, and whether files in it are open.
-/

namespace Lhatove.Physfs

open List

abbrev Path := List Char

inductive CommonPath
  | appSavedir
  | appDocuments
  | userHome
  | userAppdata
  | userDesktop
  | userDocuments
  deriving DecidableEq

/-- What is mounted. -/
structure Entry where
  dirName : Path
  mountPoint : Path
  forWriting : Bool
  mountedFor : Option CommonPath
  deriving DecidableEq

/-- What the system answers. -/
structure Answers where
  isRealDirectory : Path → Bool
  createRealDirectory : Path → Bool
  opens : Entry → Bool
  inUse : Path → Bool

def isMounted (searchPath : List Entry) (path : Path) : Bool :=
  searchPath.any fun e => e.dirName = path

/-- `PHYSFS_mount` and `PHYSFS_mountRW` -/
def physfsMount (answers : Answers) (searchPath : List Entry) (new : Entry) (append : Bool) :
    Bool × List Entry :=
  if isMounted searchPath new.dirName = true then (true, searchPath)
  else if answers.opens new = true then
    (true, if append = true then searchPath ++ [new] else new :: searchPath)
  else (false, searchPath)

/-- `PHYSFS_canUnmount` -/
def canUnmount (answers : Answers) (searchPath : List Entry) (path : Path) : Bool :=
  isMounted searchPath path && !answers.inUse path

/-- `PHYSFS_unmount` -/
def physfsUnmount (answers : Answers) (searchPath : List Entry) (path : Path) :
    Bool × List Entry :=
  if canUnmount answers searchPath path = true then
    (true, searchPath.eraseP fun e => e.dirName = path)
  else (false, searchPath)

/-- No directory is mounted twice. -/
def Distinct (searchPath : List Entry) : Prop := (searchPath.map Entry.dirName).Nodup

variable {answers : Answers} {searchPath : List Entry} {path : Path} {new : Entry} {append : Bool}

theorem isMounted_iff : isMounted searchPath path = true ↔ ∃ e ∈ searchPath, e.dirName = path := by
  rw [isMounted, any_eq_true]
  exact exists_congr fun e => and_congr_right fun _ => decide_eq_true_iff

theorem isMounted_eq_false :
    isMounted searchPath path = false ↔ ∀ e ∈ searchPath, e.dirName ≠ path := by
  rw [← Bool.not_eq_true, isMounted_iff]
  exact ⟨fun h e he heq => h ⟨e, he, heq⟩, fun h ⟨e, he, heq⟩ => h e he heq⟩

theorem mem_mounted {e : Entry} :
    (e ∈ if append = true then searchPath ++ [new] else new :: searchPath) ↔
      e = new ∨ e ∈ searchPath := by
  split_ifs
  · rw [mem_append, mem_singleton, or_comm]
  · exact mem_cons

theorem distinct_mounted (h : Distinct searchPath)
    (hnew : isMounted searchPath new.dirName = false) :
    Distinct (if append = true then searchPath ++ [new] else new :: searchPath) := by
  have hfresh : new.dirName ∉ searchPath.map Entry.dirName := by
    rw [mem_map]
    rintro ⟨e, he, heq⟩
    exact isMounted_eq_false.mp hnew e he heq
  split_ifs
  · rw [Distinct, map_append, map_singleton]
    exact nodup_append.mpr ⟨h, nodup_singleton _, fun a ha b hb heq =>
      hfresh (by rw [mem_singleton.mp hb] at heq; exact heq ▸ ha)⟩
  · rw [Distinct, map_cons]
    exact nodup_cons.mpr ⟨hfresh, h⟩

theorem Distinct.eq (h : Distinct searchPath) {e f : Entry} (he : e ∈ searchPath)
    (hf : f ∈ searchPath) (heq : e.dirName = f.dirName) : e = f :=
  inj_on_of_nodup_map h he hf heq

theorem mem_unmounted (h : Distinct searchPath) {e : Entry} :
    (e ∈ searchPath.eraseP fun e => e.dirName = path) ↔ e ∈ searchPath ∧ e.dirName ≠ path := by
  induction searchPath with
  | nil => simp
  | cons f rest ih =>
    obtain ⟨hfresh, hrest⟩ := nodup_cons.mp h
    by_cases hf : f.dirName = path
    · rw [eraseP_cons_of_pos (by simpa using hf), mem_cons]
      -- the others have other names
      have hothers : ∀ g ∈ rest, g.dirName ≠ path := fun g hg heq =>
        hfresh (by rw [hf, ← heq]; exact mem_map_of_mem hg)
      constructor
      · intro he
        exact ⟨.inr he, hothers e he⟩
      · rintro ⟨rfl | he, hne⟩
        · exact absurd hf hne
        · exact he
    · rw [eraseP_cons_of_neg (by simpa using hf), mem_cons, mem_cons, ih hrest]
      constructor
      · rintro (rfl | ⟨he, hne⟩)
        · exact ⟨.inl rfl, hf⟩
        · exact ⟨.inr he, hne⟩
      · rintro ⟨rfl | he, hne⟩
        · exact .inl rfl
        · exact .inr ⟨he, hne⟩

theorem distinct_unmounted (h : Distinct searchPath) :
    Distinct (searchPath.eraseP fun e => e.dirName = path) :=
  (eraseP_sublist.map _).nodup h

theorem unmounted_mounted (hnew : isMounted searchPath new.dirName = false) :
    (if append = true then searchPath ++ [new] else new :: searchPath).eraseP
      (fun e => e.dirName = new.dirName) = searchPath := by
  have hothers := isMounted_eq_false.mp hnew
  split_ifs
  · rw [eraseP_append_right _ (fun e he => by simpa using hothers e he)]
    rw [eraseP_cons_of_pos (by simp), append_nil]
  · exact eraseP_cons_of_pos (by simp)

end Lhatove.Physfs
