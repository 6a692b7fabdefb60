import Lhatove.Lib.Tables

/-!
# Disks and what is mounted of them

The files that a game is read from and written to. A path is its names, of which `[]` is the
root; PhysFS and the engine spell it with slashes.

- `Disk`: what lies at each path, and each thing lies in a directory;
- `mkdir`, `writeBytes`, `makeParents`;
- `stat`, `getDirectoryItems`: what PhysFS answers, of the directories that are mounted.
-/

namespace Lhatove.Lh

open List

abbrev Path := List String

abbrev Bytes := List UInt8

inductive Entry where
  | directory
  | file (bytes : Bytes)
  deriving DecidableEq, Repr

/-- Each thing lies in a directory. -/
structure Disk where
  entries : Table Path Entry
  inside : ∀ (p : Path) (n : String), (entries.lookup (p ++ [n])).isSome →
    entries.lookup p = some .directory

/-- What the system lets a program do: make a directory, open a file to write it, and how
much of the bytes it takes. -/
structure Os where
  makes : Path → Bool
  opens : Path → Bool
  takes : Path → Bytes → Nat

/-- A system that refuses nothing. -/
def Os.willing : Os where
  makes _ := true
  opens _ := true
  takes _ bytes := bytes.length

namespace Disk

variable {disk : Disk}

def entry (disk : Disk) (path : Path) : Option Entry := disk.entries.lookup path

theorem entry_parent {path : Path} {n : String} {e : Entry} (h : disk.entry (path ++ [n]) = some e) :
    disk.entry path = some .directory :=
  disk.inside path n (by rw [show disk.entries.lookup (path ++ [n]) = some e from h]; rfl)

theorem entry_above {path rest : Path} {e : Entry} (h : disk.entry (path ++ rest) = some e)
    (hrest : rest ≠ []) : disk.entry path = some .directory := by
  induction rest using reverseRecOn generalizing e with
  | nil => exact absurd rfl hrest
  | append_singleton rest n ih =>
    rw [← append_assoc] at h
    have hparent := entry_parent h
    rcases eq_or_ne rest [] with rfl | hne
    · rwa [append_nil] at hparent
    · exact ih hparent hne

/-- A thing is put where nothing is below, into a directory. -/
def put (disk : Disk) (path : Path) (n : String) (e : Entry)
    (hparent : disk.entry path = some .directory)
    (hkind : disk.entry (path ++ [n]) = some .directory → e = .directory) : Disk where
  entries := disk.entries.insert (path ++ [n]) e
  inside p m h := by
    rw [Table.lookup_insert_eq] at h ⊢
    have hp : disk.entry p = some .directory := by
      split_ifs at h with heq
      · rw [(List.append_inj' heq rfl).1]
        exact hparent
      · exact disk.inside p m h
    split_ifs with hself
    · rw [hkind (hself ▸ hp)]
    · exact hp

theorem entry_put {path p : Path} {n : String} {e : Entry}
    (hparent : disk.entry path = some .directory)
    (hkind : disk.entry (path ++ [n]) = some .directory → e = .directory) :
    (disk.put path n e hparent hkind).entry p = if p = path ++ [n] then some e else disk.entry p :=
  Table.lookup_insert_eq disk.entries p (path ++ [n]) e

theorem shallow (disk : Disk) : ∃ depth, ∀ p, (disk.entry p).isSome → p.length ≤ depth := by
  have hlist : ∀ l : List Path, ∃ depth, ∀ p ∈ l, p.length ≤ depth := by
    intro l
    induction l with
    | nil => exact ⟨0, fun p hp => absurd hp not_mem_nil⟩
    | cons p l ih =>
      obtain ⟨depth, hdepth⟩ := ih
      refine ⟨max p.length depth, fun q hq => ?_⟩
      rcases mem_cons.mp hq with rfl | hq
      · exact Nat.le_max_left _ _
      · exact (hdepth q hq).trans (Nat.le_max_right _ _)
  obtain ⟨depth, hdepth⟩ := hlist disk.entries.keys
  exact ⟨depth, fun p hp => hdepth p (AList.mem_keys.mp (AList.lookup_isSome.mp hp))⟩

end Disk

/-- A disk with nothing on it. -/
def Disk.root : Disk where
  entries := AList.insert [] .directory ∅
  inside p n h := by
    rw [Table.lookup_insert_eq, if_neg (by simp), AList.lookup_empty] at h
    cases h

theorem Disk.entry_root {p : Path} : Disk.root.entry p = if p = [] then some .directory else none := by
  rw [Disk.entry, Disk.root, Table.lookup_insert_eq, AList.lookup_empty]

/-! ## Making directories and writing files -/

section

variable (os : Os)

/-- `mkdir`, whose failures nobody looks at. -/
def mkdir (disk : Disk) (path : Path) : Disk :=
  if h : path ≠ [] ∧ disk.entry path.dropLast = some .directory ∧ disk.entry path = none ∧
      os.makes path = true then
    disk.put path.dropLast (path.getLast h.1) .directory h.2.1 fun _ => rfl
  else disk

/-- `fopen` for writing, `fwrite` and `fclose`: whether all of the bytes went out. -/
def writeBytes (disk : Disk) (path : Path) (bytes : Bytes) : Disk × Bool :=
  if h : path ≠ [] ∧ disk.entry path.dropLast = some .directory ∧
      disk.entry path ≠ some .directory ∧ os.opens path = true then
    (disk.put path.dropLast (path.getLast h.1) (.file (bytes.take (os.takes path bytes))) h.2.1
      fun hdir => absurd (List.dropLast_append_getLast h.1 ▸ hdir) h.2.2.1,
     decide (bytes.length = 0 ∨ (bytes.take (os.takes path bytes)).length = bytes.length))
  else (disk, false)

/-- Makes the directories that lead to `unit`, under `root`. -/
def makeParents (disk : Disk) (root : Path) : Path → Disk
  | n :: m :: rest => makeParents (mkdir os disk (root ++ [n])) (root ++ [n]) (m :: rest)
  | _ => disk

variable {os} {disk : Disk} {root path p : Path} {bytes : Bytes}

theorem entry_mkdir (os : Os) (disk : Disk) (path p : Path) : (mkdir os disk path).entry p = disk.entry p ∨
    p = path ∧ disk.entry p = none ∧ (mkdir os disk path).entry p = some .directory := by
  unfold mkdir
  split_ifs with h
  · rw [Disk.entry_put, dropLast_append_getLast]
    split_ifs with hp
    · exact .inr ⟨hp, hp ▸ h.2.2.1, rfl⟩
    · exact .inl rfl
  · exact .inl rfl

theorem entry_mkdir_of_some {e : Entry} (h : disk.entry p = some e) :
    (mkdir os disk path).entry p = some e := by
  rcases entry_mkdir os disk path p with hsame | ⟨-, hnone, -⟩
  · rw [hsame, h]
  · rw [h] at hnone
    cases hnone

theorem entry_mkdir_self (hne : path ≠ []) (hparent : disk.entry path.dropLast = some .directory)
    (hfile : ∀ b, disk.entry path ≠ some (.file b)) (hos : os.makes path = true) :
    (mkdir os disk path).entry path = some .directory := by
  rcases hpath : disk.entry path with _ | _ | b
  · rw [mkdir, dif_pos ⟨hne, hparent, hpath, hos⟩, Disk.entry_put, dropLast_append_getLast,
      if_pos rfl]
  · exact entry_mkdir_of_some hpath
  · exact absurd hpath (hfile b)

theorem mkdir_of_some {e : Entry} (h : disk.entry path = some e) : mkdir os disk path = disk := by
  rw [mkdir, dif_neg]
  rintro ⟨-, -, hnone, -⟩
  rw [h] at hnone
  cases hnone

theorem entry_makeParents (os : Os) (disk : Disk) (root unit p : Path) :
    (makeParents os disk root unit).entry p = disk.entry p ∨
    (∃ q, q ≠ [] ∧ q <+: unit ∧ q ≠ unit ∧ p = root ++ q) ∧ disk.entry p = none ∧
      (makeParents os disk root unit).entry p = some .directory := by
  induction unit generalizing disk root with
  | nil => exact .inl rfl
  | cons n rest ih =>
    cases rest with
    | nil => exact .inl rfl
    | cons m rest =>
      rw [makeParents]
      rcases @ih (mkdir os disk (root ++ [n])) (root ++ [n]) with
        hsame | ⟨⟨q, hq, hpre, hproper, rfl⟩, hnone, hmade⟩
      · rw [hsame]
        rcases entry_mkdir os disk (root ++ [n]) p with
          h | ⟨rfl, hnone, hmade⟩
        · exact .inl h
        · exact .inr ⟨⟨[n], by simp, by simp, by simp, rfl⟩, hnone, hmade⟩
      · refine .inr ⟨⟨n :: q, by simp, ?_, ?_, by simp⟩, ?_, hmade⟩
        · exact cons_prefix_cons.mpr ⟨rfl, hpre⟩
        · exact fun heq => hproper (List.cons.inj heq).2
        · cases hbefore : disk.entry (root ++ [n] ++ q) with
          | none => rfl
          | some e =>
            rw [entry_mkdir_of_some hbefore] at hnone
            cases hnone

theorem entry_makeParents_of_some {unit : Path} {e : Entry} (h : disk.entry p = some e) :
    (makeParents os disk root unit).entry p = some e := by
  rcases entry_makeParents os disk root unit p with
    hsame | ⟨-, hnone, -⟩
  · rw [hsame, h]
  · rw [h] at hnone
    cases hnone

theorem makeParents_made {unit q : Path} (hroot : disk.entry root = some .directory)
    (hos : ∀ p, os.makes p = true)
    (hfile : ∀ q, q <+: unit → q ≠ unit → ∀ b, disk.entry (root ++ q) ≠ some (.file b))
    (hq : q <+: unit) (hne : q ≠ unit) :
    (makeParents os disk root unit).entry (root ++ q) = some .directory := by
  induction unit generalizing disk root q with
  | nil => exact absurd (prefix_nil.mp hq) hne
  | cons n rest ih =>
    cases q with
    | nil =>
      rw [append_nil]
      exact entry_makeParents_of_some hroot
    | cons n' q =>
      obtain ⟨rfl, hrest⟩ := cons_prefix_cons.mp hq
      have hproper : q ≠ rest := fun heq => hne (heq ▸ rfl)
      cases rest with
      | nil => exact absurd (prefix_nil.mp hrest) hproper
      | cons m rest =>
        have hmade : (mkdir os disk (root ++ [n'])).entry (root ++ [n']) = some .directory := by
          refine entry_mkdir_self (by simp) ?_ ?_ (hos _)
          · rw [dropLast_concat]
            exact hroot
          · exact hfile [n'] (by simp) (by simp)
        rw [makeParents, append_cons root n' q]
        refine ih hmade (fun q' hq' hne' b hb => ?_) hrest hproper
        -- a file that is there now was there before
        rcases entry_mkdir os disk (root ++ [n']) (root ++ [n'] ++ q') with hsame | ⟨-, -, hdir⟩
        · rw [hsame, ← append_cons] at hb
          exact hfile (n' :: q') (cons_prefix_cons.mpr ⟨rfl, hq'⟩)
            (fun heq => hne' (List.cons.inj heq).2) b hb
        · rw [hdir] at hb
          cases hb

theorem entry_writeBytes (os : Os) (disk : Disk) (path : Path) (bytes : Bytes) (p : Path) :
    (writeBytes os disk path bytes).1.entry p = disk.entry p ∨
    p = path ∧ path ≠ [] ∧ disk.entry path ≠ some .directory ∧
      (writeBytes os disk path bytes).1.entry p =
        some (.file (bytes.take (os.takes path bytes))) := by
  unfold writeBytes
  split_ifs with h
  · rw [Disk.entry_put, dropLast_append_getLast]
    split_ifs with hp
    · exact .inr ⟨hp, h.1, h.2.2.1, rfl⟩
    · exact .inl rfl
  · exact .inl rfl

theorem entry_writeBytes_directory (h : disk.entry p = some .directory) :
    (writeBytes os disk path bytes).1.entry p = some .directory := by
  rcases entry_writeBytes os disk path bytes p with
    hsame | ⟨rfl, -, hkind, -⟩
  · rw [hsame, h]
  · exact absurd h hkind

theorem entry_writeBytes_of_ok (h : (writeBytes os disk path bytes).2 = true) :
    (writeBytes os disk path bytes).1.entry path = some (.file bytes) := by
  unfold writeBytes at h ⊢
  split_ifs at h ⊢ with hopen
  · rw [Disk.entry_put, dropLast_append_getLast, if_pos rfl]
    have hall : bytes.take (os.takes path bytes) = bytes := by
      rcases of_decide_eq_true h with hzero | hlen
      · rw [length_eq_zero_iff.mp hzero, take_nil]
      · exact take_eq_self_iff bytes |>.mpr (by rw [length_take] at hlen; omega)
    rw [hall]

theorem writeBytes_ok (hne : path ≠ []) (hparent : disk.entry path.dropLast = some .directory)
    (hkind : disk.entry path ≠ some .directory) :
    (writeBytes Os.willing disk path bytes).2 = true := by
  rw [writeBytes, dif_pos ⟨hne, hparent, hkind, rfl⟩]
  simp [Os.willing]

/-- A disk with the directories of a path. -/
def Disk.roads (path : Path) : Disk := makeParents Os.willing Disk.root [] (path ++ ["x"])

theorem Disk.entry_roads {path p : Path} : (Disk.roads path).entry p =
    if p <+: path then some .directory else none := by
  have hroot : Disk.root.entry [] = some .directory := by rw [Disk.entry_root, if_pos rfl]
  split_ifs with hp
  · refine makeParents_made hroot (fun _ => rfl) (fun q _ _ b hb => ?_) ?_ ?_
    · rw [Disk.entry_root] at hb
      split_ifs at hb
      cases hb
    · exact hp.trans (prefix_append path _)
    · rintro rfl
      have hle := hp.length_le
      rw [length_append, length_singleton] at hle
      omega
  · rcases entry_makeParents .willing .root [] (path ++ ["x"]) p with
      hsame | ⟨⟨q, -, hq, hne, rfl⟩, -⟩
    · rw [Disk.roads, hsame, Disk.entry_root, if_neg]
      rintro rfl
      exact hp nil_prefix
    · exact absurd ((prefix_concat_iff.mp hq).resolve_left hne) hp

end

/-! ## What is mounted -/

/-- `PHYSFS_stat`: the first of the mounted directories that has something at the path. -/
def stat (mounts : List Path) (disk : Disk) (path : Path) : Option Entry :=
  mounts.findSome? fun m => disk.entry (m ++ path)

/-- The names in a directory, in no order. -/
def Disk.names (disk : Disk) (dir : Path) : List String :=
  disk.entries.keys.filterMap fun p => if p ≠ [] ∧ p.dropLast = dir then p.getLast? else none

/-- `PHYSFS_enumerateFiles`: the names in the directories that are mounted, each once and in
order. -/
def getDirectoryItems (mounts : List Path) (disk : Disk) (dir : Path) : List String :=
  ((mounts.filter fun m => disk.entry (m ++ dir) = some .directory).flatMap fun m =>
    disk.names (m ++ dir)).dedup.insertionSort (· ≤ ·)

section

variable {mounts : List Path} {disk disk' : Disk} {path : Path}

theorem Disk.mem_names {dir : Path} {n : String} :
    n ∈ disk.names dir ↔ (disk.entry (dir ++ [n])).isSome := by
  rw [Disk.entry, AList.lookup_isSome, AList.mem_keys, Disk.names, mem_filterMap]
  constructor
  · rintro ⟨p, hp, h⟩
    split_ifs at h with hcond
    rw [getLast?_eq_some_getLast hcond.1] at h
    rw [← hcond.2, ← Option.some.inj h, dropLast_append_getLast]
    exact hp
  · intro h
    exact ⟨dir ++ [n], h, by simp⟩

theorem mem_getDirectoryItems {dir : Path} {n : String} :
    n ∈ getDirectoryItems mounts disk dir ↔
      ∃ m ∈ mounts, (disk.entry (m ++ dir ++ [n])).isSome := by
  rw [getDirectoryItems, mem_insertionSort, mem_dedup, mem_flatMap]
  constructor
  · rintro ⟨m, hm, hn⟩
    exact ⟨m, (mem_filter.mp hm).1, Disk.mem_names.mp hn⟩
  · rintro ⟨m, hm, hn⟩
    obtain ⟨e, he⟩ := Option.isSome_iff_exists.mp hn
    exact ⟨m, mem_filter.mpr ⟨hm, decide_eq_true (Disk.entry_parent he)⟩,
      Disk.mem_names.mpr hn⟩

theorem stat_of_mem {m : Path} (hm : m ∈ mounts) (h : (disk.entry (m ++ path)).isSome) :
    ∃ e, stat mounts disk path = some e := by
  refine Option.isSome_iff_exists.mp (findSome?_isSome_iff.mpr ⟨m, hm, h⟩)

theorem exists_of_stat {e : Entry} (h : stat mounts disk path = some e) :
    ∃ m ∈ mounts, disk.entry (m ++ path) = some e :=
  exists_of_findSome?_eq_some h

theorem stat_first {game : Path} {behind : List Path} {e : Entry}
    (h : disk.entry (game ++ path) = some e) : stat (game :: behind) disk path = some e := by
  rw [stat, findSome?_cons, h]

end

end Lhatove.Lh
