import Lhatove.Lh.CompileCopies
import Mathlib.Data.Fintype.EquivFin
import Mathlib.Data.List.GetD

/-!
# Where compiling a game goes wrong

Below what is mounted, the walk makes a directory for each that it lists, and lists it: it
does not end. Above the game, what is written may be a file of the game that was not read yet.

- `Tidy`, `Neat`: nothing is in the way of what is written;
- `compileGame_never`, `compileGame_spoils`;
- `compileGame_faithful_iff`.
-/

namespace Lhatove.Lh

open LoopM List

/-- The last name of the path is a name for files, and the others are not. -/
def IsFilePath (F : String → Prop) (path : Path) : Prop :=
  ∃ d n, path = d ++ [n] ∧ F n ∧ ∀ m ∈ d, ¬ F m

/-- Nothing is refused, and the game compiles to units that have names for files. -/
structure Tidy (e : Site) (F : String → Prop) : Prop where
  os : e.os = Os.willing
  check : ∀ path, e.program.check path = .ok
  compiles : e.program.compiles = true
  units : ∀ u ∈ e.program.units, ∃ path bytes, u = ⟨some path, some bytes⟩ ∧ IsFilePath F path
  confHeld : e.program.isHeld confLton = false
  conf : ¬ F "conf.lton"

/-- The destination is there, and names tell files from directories. -/
structure Neat (e : Site) (F : String → Prop) (s : Run) : Prop where
  dest : s.disk.entry e.dest = some .directory
  directories : ∀ path, s.disk.entry path = some .directory → ∀ n ∈ path, ¬ F n
  files : ∀ path bytes, s.disk.entry path = some (.file bytes) → ∃ d n, path = d ++ [n] ∧ F n

/-- What a step leaves of directories and files; `source` is what it may have put at `path`. -/
structure Grown (e : Site) (F : String → Prop) (path : Path) (source : Bytes → Prop) (s t : Run) :
    Prop where
  neat : Neat e F t
  directories : ∀ p, s.disk.entry p = some .directory → t.disk.entry p = some .directory
  places : ∀ p, (t.disk.entry p).isSome → (s.disk.entry p).isSome ∨
    ∃ q, q.length ≤ path.length ∧ p = e.dest ++ q
  contents : ∀ p b, t.disk.entry p = some (.file b) →
    s.disk.entry p = some (.file b) ∧ p ≠ e.dest ++ path ∨ p = e.dest ++ path ∧ source b

variable {e : Site} {F : String → Prop} {s : Run}

theorem Neat.not_file (h : Neat e F s) {path : Path} (hpath : ∀ n ∈ path, ¬ F n) (b : Bytes) :
    s.disk.entry (e.dest ++ path) ≠ some (.file b) := by
  intro hfile
  obtain ⟨d, n, heq, hn⟩ := h.files _ b hfile
  have hmem : n ∈ e.dest ++ path := heq ▸ by simp
  rcases mem_append.mp hmem with hdest | hmem
  · exact h.directories _ h.dest n hdest hn
  · exact hpath n hmem hn

theorem Neat.isFilePath (h : Neat e F s) {path : Path} (hne : path ≠ [])
    (hkind : isDirectory e s path = some false) :
    IsFilePath F path ∧ ∃ m b, m ∈ e.mounts ∧ stat e.mounts s.disk path = some (.file b) ∧
      s.disk.entry (m ++ path) = some (.file b) := by
  obtain ⟨_ | b, hstat, hfile⟩ := stat_of_isDirectory hkind
  · cases hfile
  obtain ⟨m, hm, hentry⟩ := exists_of_stat hstat
  refine ⟨?_, m, b, hm, hstat, hentry⟩
  obtain ⟨d, n, rfl⟩ := eq_nil_or_concat path |>.resolve_left hne
  obtain ⟨d', n', heq, hn⟩ := h.files _ b hentry
  rw [concat_eq_append, ← append_assoc] at heq hentry
  obtain ⟨-, hnn⟩ := append_inj' heq rfl
  obtain rfl := (List.cons.inj hnn).1
  refine ⟨d, n, by rw [concat_eq_append], hn, fun n' hn' => ?_⟩
  exact h.directories _ (Disk.entry_parent hentry) n' (mem_append_right m hn')

/-! ## The steps -/

theorem Neat.grow (h : Neat e F s) (hos : e.os = Os.willing) {path : Path}
    (hpath : ∀ q, q <+: path → q ≠ path → ∀ n ∈ q, ¬ F n) :
    Neat e F { s with disk := makeParents e.os s.disk e.dest path } ∧
      ∀ q, q <+: path → q ≠ path →
        (makeParents e.os s.disk e.dest path).entry (e.dest ++ q) = some .directory := by
  refine ⟨⟨entry_makeParents_of_some h.dest, fun p hp => ?_, fun p b hp => ?_⟩,
    fun q hq hne => ?_⟩
  · rcases entry_makeParents e.os s.disk e.dest path p with hsame | ⟨⟨q, -, hq, hne, rfl⟩, -⟩
    · exact h.directories p (hsame ▸ hp)
    · intro n hn
      rcases mem_append.mp hn with hdest | hn
      · exact h.directories _ h.dest n hdest
      · exact hpath q hq hne n hn
  · rcases entry_makeParents e.os s.disk e.dest path p with hsame | ⟨-, -, hdir⟩
    · exact h.files p b (hsame ▸ hp)
    · rw [show _ = _ from hp] at hdir
      cases hdir
  · refine makeParents_made h.dest (fun _ => by rw [hos]; rfl) (fun q' hq' hne' b => ?_) hq hne
    exact h.not_file (hpath q' hq' hne') b

theorem prefix_of_proper {q path : Path} {n : String} (h : q <+: path ++ [n])
    (hne : q ≠ path ++ [n]) : q <+: path := (prefix_concat_iff.mp h).resolve_left hne

theorem IsFilePath.above {path q : Path} (h : IsFilePath F path) (hq : q <+: path) (hne : q ≠ path) :
    ∀ n ∈ q, ¬ F n := by
  obtain ⟨d, n, rfl, -, hd⟩ := h
  exact fun m hm => hd m ((prefix_of_proper hq hne).subset hm)

theorem Neat.parents (h : Neat e F s) (hos : e.os = Os.willing) {path : Path}
    (hpath : ∀ n ∈ path, ¬ F n) {source : Bytes → Prop}
    (hsource : ∀ p b, s.disk.entry p = some (.file b) → source b) :
    Grown e F path source s { s with disk := makeParents e.os s.disk e.dest (path ++ ["x"]) } ∧
      (makeParents e.os s.disk e.dest (path ++ ["x"])).entry (e.dest ++ path) =
        some .directory := by
  obtain ⟨hneat, hmade⟩ := @Neat.grow e F s h hos (path ++ ["x"]) fun q hq hne n hn =>
    hpath n ((prefix_of_proper hq hne).subset hn)
  refine ⟨⟨hneat, fun p hp => entry_makeParents_of_some hp, fun p hp => ?_, fun p b hp => ?_⟩,
    hmade path (prefix_append path _) (by simp)⟩
  · rcases entry_makeParents e.os s.disk e.dest (path ++ ["x"]) p with
      hsame | ⟨⟨q, -, hq, hne, rfl⟩, -⟩
    · exact .inl (hsame ▸ hp)
    · exact .inr ⟨q, (prefix_of_proper hq hne).length_le, rfl⟩
  · rcases entry_makeParents e.os s.disk e.dest (path ++ ["x"]) p with hsame | ⟨-, -, hdir⟩
    · have hbefore : s.disk.entry p = some (.file b) := hsame ▸ hp
      by_cases hself : p = e.dest ++ path
      · exact .inr ⟨hself, hsource p b hbefore⟩
      · exact .inl ⟨hbefore, hself⟩
    · rw [show _ = _ from hp] at hdir
      cases hdir

theorem putFile_does (hos : e.os = Os.willing) {path : Path} (hpath : IsFilePath F path)
    (bytes : Bytes) (trouble : String) :
    Does (fun t => t = s ∧ Neat e F s) (putFile e path bytes trouble)
      (fun _ t => Grown e F path (· = bytes) s t) fun _ _ => False := by
  refine @Does.bind _ _ _ _ _
    (fun _ u => u = { s with disk := makeParents e.os s.disk e.dest path } ∧ Neat e F s) _ _ _ _
    (parents_does fun u hu => ⟨by rw [hu.1], hu.2⟩) fun _ => ?_
  have hready : ∀ u, u = { s with disk := makeParents e.os s.disk e.dest path } → Neat e F s →
      Neat e F u ∧ (writeBytes e.os u.disk (e.dest ++ path) bytes).2 = true := by
    rintro u rfl h
    obtain ⟨hneat, hmade⟩ := h.grow hos fun q hq hne => hpath.above hq hne
    refine ⟨hneat, ?_⟩
    obtain ⟨d, n, rfl, hn, -⟩ := hpath
    rw [hos]
    refine writeBytes_ok (by simp) ?_ fun hdir => ?_
    · rw [← append_assoc, dropLast_concat, ← hos]
      exact hmade d (prefix_append d [n]) (by simp)
    · rw [← hos] at hdir
      exact hneat.directories _ hdir n (by simp) hn
  refine write_does (fun u hu hok => ?_) fun u hu hfail => ?_
  · obtain ⟨hneat, -⟩ := hready u hu.1 hu.2
    have hcases := entry_writeBytes e.os u.disk (e.dest ++ path) bytes
    have hbefore := entry_makeParents e.os s.disk e.dest path
    rw [show makeParents e.os s.disk e.dest path = u.disk from by rw [hu.1]] at hbefore
    refine ⟨⟨entry_writeBytes_directory hneat.dest, fun p hp => ?_, fun p b hp => ?_⟩,
      fun p hp => ?_, fun p hp => ?_, fun p b hp => ?_⟩
    · rcases hcases p with hsame | ⟨-, -, -, hfile⟩
      · exact hneat.directories p (hsame ▸ hp)
      · rw [show _ = _ from hp] at hfile
        cases hfile
    · rcases hcases p with hsame | ⟨rfl, -⟩
      · exact hneat.files p b (hsame ▸ hp)
      · obtain ⟨d, n, rfl, hn, -⟩ := hpath
        exact ⟨e.dest ++ d, n, (append_assoc _ _ _).symm, hn⟩
    · refine entry_writeBytes_directory ?_
      rw [hu.1]
      exact entry_makeParents_of_some hp
    · rcases hcases p with hsame | ⟨rfl, -⟩
      · rcases hbefore p with hold | ⟨⟨q, -, hq, -, rfl⟩, -⟩
        · exact .inl (by rw [← hold, ← hsame]; exact hp)
        · exact .inr ⟨q, hq.length_le, rfl⟩
      · exact .inr ⟨path, le_rfl, rfl⟩
    · by_cases hself : p = e.dest ++ path
      · subst hself
        have hthere := entry_writeBytes_of_ok hok
        rw [show _ = _ from hp] at hthere
        exact .inr ⟨rfl, Entry.file.inj (Option.some.inj hthere)⟩
      · rcases hcases p with hsame | ⟨rfl, -⟩
        · rcases hbefore p with hold | ⟨-, -, hdir⟩
          · exact .inl ⟨by rw [← hold, ← hsame]; exact hp, hself⟩
          · rw [show _ = _ from hp, hdir] at hsame
            cases hsame
        · exact absurd rfl hself
  · rw [(hready u hu.1 hu.2).2] at hfail
    cases hfail

/-! ## The walks -/

/-- The bytes of some file. -/
def Held (s : Run) (bytes : Bytes) : Prop := ∃ p, s.disk.entry p = some (.file bytes)

theorem copyFile_neat (hos : e.os = Os.willing) {written : List Path} {path : Path}
    (hne : path ≠ []) :
    Does (fun t => t = s ∧ Neat e F s ∧ isDirectory e s path = some false)
      (copyFile e written path) (fun _ t => Grown e F path (Held s) s t) fun _ _ => False := by
  unfold copyFile
  split_ifs with hwritten
  · refine .pure ?_
    rintro t ⟨rfl, hneat, -⟩
    refine ⟨hneat, fun _ hp => hp, fun _ hp => .inl hp, fun p b hp => ?_⟩
    by_cases hself : p = e.dest ++ path
    · exact .inr ⟨hself, p, hp⟩
    · exact .inl ⟨hp, hself⟩
  refine .get_bind fun t => ?_
  rintro ⟨rfl, hneat, hkind⟩
  obtain ⟨hpath, m, b, -, hstat, hentry⟩ := hneat.isFilePath hne hkind
  rw [hstat]
  refine .bind ((putFile_does hos hpath b _).mono (fun u hu => ⟨hu, hneat⟩)
    (fun _ _ hq => hq) fun _ _ he => he) fun _ => .modify fun u hu => ?_
  refine ⟨⟨hu.neat.dest, hu.neat.directories, hu.neat.files⟩, hu.directories, hu.places,
    fun p b' hp => ?_⟩
  rcases hu.contents p b' hp with hold | ⟨hself, rfl⟩
  · exact .inl hold
  · exact .inr ⟨hself, m ++ path, hentry⟩

/-- The walk keeps what steps at places that are seen keep, and throws nothing. -/
theorem restWalk_neat (hos : e.os = Os.willing) {written : List Path} {P : Run → Prop}
    (hP : ∀ s t path, P s → (isDirectory e s path).isSome → Grown e F path (Held s) s t → P t) :
    (restWalk e written).Keeps (fun s => Neat e F s ∧ P s) fun _ _ => False where
  enter path _ := by
    refine parents_does fun s hs => ?_
    obtain ⟨⟨hneat, hPs⟩, hkind⟩ := hs
    have hpath : ∀ n ∈ path, ¬ F n := by
      obtain ⟨entry, hstat, hdir⟩ := stat_of_isDirectory hkind
      obtain ⟨m, -, hentry⟩ := exists_of_stat hstat
      rw [of_decide_eq_true hdir] at hentry
      exact fun n hn => hneat.directories _ hentry n (mem_append_right m hn)
    obtain ⟨hgrown, -⟩ := hneat.parents hos hpath fun p b hp => (⟨p, hp⟩ : Held s b)
    exact ⟨hgrown.neat, hP s _ path hPs (Option.isSome_iff_exists.mpr ⟨_, hkind⟩) hgrown⟩
  visit path hne := by
    intro s r hs hr
    refine ((copyFile_neat hos hne).mono (fun _ ht => ⟨ht, hs.1.1, hs.2⟩) (fun _ t hq => ?_)
      fun _ _ he => he) s r rfl hr
    exact ⟨hq.neat, hP s t path hs.1.2 (Option.isSome_iff_exists.mpr ⟨_, hs.2⟩) hq⟩

theorem Tidy.unitWalk_keeps (h : Tidy e F) {P : Run → Prop} :
    (unitWalk e).Keeps P fun _ _ => False where
  enter _ _ := .pure fun _ ht => ht.1
  visit path _ := by
    have hquiet : Does (fun t => P t ∧ isDirectory e t path = some false) (checkUnit e path)
        (fun _ => P) fun _ _ => False := by
      unfold checkUnit
      rw [h.check]
      split_ifs
      all_goals exact .pure fun t ht => ht.1
    exact hquiet

theorem Tidy.compileProgram_does (h : Tidy e F) {P : Run → Prop} :
    Does P (compileProgram e) (fun _ => P) fun _ _ => False := by
  rw [compileProgram, if_pos h.compiles]
  exact .pure fun _ hs => hs

theorem Tidy.writeUnits_does (h : Tidy e F) {units : List ProgramUnit}
    (hunits : ∀ u ∈ units, u ∈ e.program.units) (written : List Path) :
    Does (Neat e F) (writeUnits e units written) (fun _ => Neat e F) fun _ _ => False := by
  induction units generalizing written with
  | nil => exact .pure fun _ hs => hs
  | cons u units ih =>
    have hrest := ih fun v hv => hunits v (mem_cons_of_mem u hv)
    obtain ⟨path, bytes, rfl, hpath⟩ := h.units u (hunits u mem_cons_self)
    rw [writeUnits]
    dsimp only
    split_ifs
    · exact hrest written
    · refine .bind (fun s r hs hr => ?_) fun _ => hrest _
      exact ((putFile_does h.os hpath bytes _).mono (fun _ ht => ⟨ht, hs⟩) (fun _ _ hq => hq.neat)
        fun _ _ he => he) s r rfl hr

theorem Tidy.writeLton_does (h : Tidy e F) {P : Run → Prop} (hneat : ∀ s, P s → Neat e F s)
    (written : List Path) :
    Does P (writeLton e written) (fun _ => P) fun _ _ => False := by
  refine .get_bind fun s hs => ?_
  have hnone : isFile e s confLton = false := by
    rw [isFile, decide_eq_false_iff_not]
    intro hkind
    obtain ⟨⟨d, n, heq, hn, -⟩, -⟩ := (hneat s hs).isFilePath (cons_ne_nil _ _) hkind
    obtain ⟨-, hlast⟩ := append_inj' (show [] ++ ["conf.lton"] = d ++ [n] from heq) rfl
    exact h.conf ((List.cons.inj hlast).1 ▸ hn)
  rw [h.confHeld, hnone]
  exact .pure fun t ht => ht ▸ hs

/-! ## Below what is mounted -/

/-- The first names of a path that is repeated. -/
def cycle (q : Path) : Nat → Path
  | 0 => []
  | j + 1 => cycle q j ++ [q.getD (j % q.length) ""]

theorem cycle_take (q : Path) {j : Nat} (hj : j ≤ q.length) : cycle q j = q.take j := by
  induction j with
  | zero => rfl
  | succ j ih =>
    rw [cycle, ih (by omega), Nat.mod_eq_of_lt (by omega), getD_eq_getElem _ _ (by omega),
      take_append_getElem]

theorem cycle_add (q : Path) (j : Nat) : cycle q (q.length + j) = q ++ cycle q j := by
  induction j with
  | zero => rw [Nat.add_zero, cycle_take q le_rfl, take_length, cycle, append_nil]
  | succ j ih => rw [← Nat.add_assoc, cycle, ih, Nat.add_mod_left, cycle, append_assoc]

theorem mem_of_mem_cycle {q : Path} (hq : q ≠ []) {j : Nat} {n : String} (hn : n ∈ cycle q j) :
    n ∈ q := by
  induction j with
  | zero => cases hn
  | succ j ih =>
    rcases mem_append.mp hn with hn | hn
    · exact ih hn
    · have hlt : j % q.length < q.length := Nat.mod_lt _ (length_pos_iff.mpr hq)
      rw [mem_singleton.mp hn, getD_eq_getElem _ _ hlt]
      exact getElem_mem hlt

/-- **Each directory that the walk lists gets one more**, in the way that the first one did. -/
theorem copyRest_never (hos : e.os = Os.willing) {m q : Path} (hm : m ∈ e.mounts)
    (hdest : e.dest = m ++ q) (hq : q ≠ []) (written : List Path) :
    Does (Neat e F) (copyRest e written []) (fun _ _ => False) fun _ _ => False := by
  have hpos : 0 < q.length := length_pos_iff.mpr hq
  have hclean : ∀ s, Neat e F s → ∀ j, ∀ n ∈ cycle q j, ¬ F n := by
    intro s hs j n hn
    exact hs.directories _ hs.dest n (hdest ▸ mem_append_right m (mem_of_mem_cycle hq hn))
  have hwalk := @Walk.walk_never _ _ _ (restWalk e written) (fun _ _ => False)
    (fun j s => Neat e F s ∧ ∀ i, i ≤ q.length + j →
      s.disk.entry (m ++ cycle q i) = some .directory)
    (cycle q) (fun j => q.getD (j % q.length) "") (fun _ => rfl) ?_ ?_ ?_ ?_ 0
  · refine hwalk.mono (fun s hs => ⟨hs, fun i hi => ?_⟩) (fun _ _ h => h) fun _ _ h => h
    -- what leads to the destination is there
    rw [cycle_take q hi]
    by_cases hall : q.take i = q
    · rw [hall, ← hdest]
      exact hs.dest
    · have hdir : s.disk.entry (m ++ q.take i ++ q.drop i) = some .directory := by
        rw [append_assoc, take_append_drop, ← hdest]
        exact hs.dest
      refine Disk.entry_above hdir fun hnil => hall ?_
      rw [← append_nil (q.take i), ← hnil, take_append_drop]
  · refine fun j => restWalk_neat hos fun s t path hs _ hgrown i hi => ?_
    exact hgrown.directories _ (hs i hi)
  · intro j s hs
    refine mem_getDirectoryItems.mpr ⟨m, hm, ?_⟩
    have hnext := hs.2 (j + 1) (by omega)
    rw [cycle, ← append_assoc] at hnext
    rw [hnext]
    rfl
  · intro j s hs
    have hnext := hs.2 (j + 1) (by omega)
    obtain ⟨entry, hstat⟩ := stat_of_mem hm (Option.isSome_iff_exists.mpr ⟨_, hnext⟩)
    show (stat e.mounts s.disk (cycle q (j + 1))).map _ = _
    rw [hstat]
    -- what is mounted in front has no file there
    obtain ⟨m', -, hentry⟩ := exists_of_stat hstat
    rcases entry with _ | b
    · rfl
    · obtain ⟨d, n, heq, hn⟩ := hs.1.files _ b hentry
      rw [cycle, ← append_assoc] at heq
      obtain ⟨-, hlast⟩ := append_inj' heq rfl
      refine absurd ((List.cons.inj hlast).1 ▸ hn) (hclean s hs.1 (j + 1) _ ?_)
      exact mem_append_right _ (mem_singleton_self _)
  · intro j
    refine parents_does fun s hs => ?_
    obtain ⟨hgrown, hmade⟩ := hs.1.parents hos (hclean s hs.1 (j + 1))
      fun p b hp => (⟨p, hp⟩ : Held s b)
    refine ⟨hgrown.neat, fun i hi => ?_⟩
    rcases Nat.lt_or_ge i (q.length + j + 1) with hlt | hge
    · exact hgrown.directories _ (hs.2 i (by omega))
    · obtain rfl : i = q.length + (j + 1) := by omega
      rw [cycle_add, ← append_assoc, ← hdest]
      exact hmade

/-- **It does not end** where the destination is below what is mounted. -/
theorem compileGame_never (h : Tidy e F) {m q : Path} (hm : m ∈ e.mounts)
    (hdest : e.dest = m ++ q) (hq : q ≠ []) {disk : Disk}
    (hstart : Neat e F ⟨mkdir e.os disk e.dest, 0⟩) : ¬ (compileGame e).Ends ⟨disk, 0⟩ := by
  have hstages : Stages e (· = ⟨disk, 0⟩) (Neat e F) (fun _ => Neat e F) (fun _ => False)
      fun _ _ => False := {
    made := fun s hs => hs ▸ hstart
    checked := Walk.walk_does h.unitWalk_keeps []
    compiled := h.compileProgram_does
    units := h.writeUnits_does (fun _ hu => hu) []
    lton := h.writeLton_does fun _ hs => hs
    rest := copyRest_never h.os hm hdest hq }
  intro hends
  obtain ⟨⟨_ | _, t⟩, hr⟩ := ends_iff.mp hends
  all_goals exact hstages.does _ _ rfl hr

/-- A program that compiles to these units, each with the byte 1. -/
def plainProgram (units : List Path) : Program where
  isHeld _ := false
  check _ := .ok
  compiles := true
  units := units.map fun path => ⟨some path, some [1]⟩
  ltonWrite := .ok

theorem plainProgram_tidy {game dest : Path} {behind units : List Path}
    (hunits : ∀ path ∈ units, IsFilePath F path) (hconf : ¬ F "conf.lton") :
    Tidy ⟨.willing, game, behind, plainProgram units, dest⟩ F where
  os := rfl
  check _ := rfl
  compiles := rfl
  units u hu := by
    obtain ⟨path, hpath, rfl⟩ := mem_map.mp hu
    exact ⟨path, [1], rfl, hunits path hpath⟩
  confHeld := rfl
  conf := hconf

theorem not_faithful_below {game dest m : Path} {behind : List Path} (hm : m ∈ game :: behind)
    (hpre : m <+: dest) (hne : m ≠ dest) :
    ¬ Faithful ⟨.willing, game, behind, plainProgram [], dest⟩ (Disk.roads dest) := by
  obtain ⟨q, rfl⟩ := hpre
  have hq : q ≠ [] := by
    rintro rfl
    exact hne (append_nil m).symm
  have hdest : (Disk.roads (m ++ q)).entry (m ++ q) = some .directory := by
    rw [Disk.entry_roads, if_pos (prefix_refl _)]
  have htidy : Tidy ⟨.willing, game, behind, plainProgram [], m ++ q⟩ fun _ => False :=
    plainProgram_tidy (fun _ hpath => absurd hpath not_mem_nil) id
  rintro ⟨r, t, hr, -⟩
  refine compileGame_never htidy hm rfl hq ?_ (ends_of_result hr)
  rw [mkdir_of_some hdest]
  refine ⟨hdest, fun _ _ _ _ => id, fun path bytes hfile => ?_⟩
  rw [Disk.entry_roads] at hfile
  split_ifs at hfile
  cases hfile

/-! ## Above the game -/

/-- The game has a file `x`, and the unit `r/x` that is written over it. -/
def spoiled (game r : Path) (x : String) : Disk :=
  (writeBytes .willing (writeBytes .willing (Disk.roads (game ++ r)) (game ++ r ++ [x]) [1]).1
    (game ++ [x]) [0]).1

theorem entry_spoiled {game r : Path} {x : String} (hx : x ∉ game ++ r) {p : Path} :
    (spoiled game r x).entry p = if p = game ++ [x] then some (.file [0])
      else if p = game ++ r ++ [x] then some (.file [1])
      else if p <+: game ++ r then some .directory else none := by
  have hroads : ∀ {d : Path}, d <+: game ++ r → (Disk.roads (game ++ r)).entry d =
      some .directory := by
    intro d hd
    rw [Disk.entry_roads, if_pos hd]
  have hnot : ∀ d : Path, (Disk.roads (game ++ r)).entry (d ++ [x]) ≠ some .directory := by
    intro d hdir
    rw [Disk.entry_roads] at hdir
    split_ifs at hdir with hpre
    exact hx (hpre.subset (mem_append_right d (mem_singleton_self x)))
  have hput : ∀ (disk : Disk) (d : Path) (bytes : Bytes) (p : Path),
      disk.entry d = some .directory → disk.entry (d ++ [x]) ≠ some .directory →
      (writeBytes .willing disk (d ++ [x]) bytes).1.entry p =
        if p = d ++ [x] then some (.file bytes) else disk.entry p := by
    intro disk d bytes p hdir hkind
    have hok : (writeBytes .willing disk (d ++ [x]) bytes).2 = true :=
      writeBytes_ok (by simp) (by rw [dropLast_concat]; exact hdir) hkind
    split_ifs with hp
    · rw [hp]
      exact entry_writeBytes_of_ok hok
    · rcases entry_writeBytes .willing disk (d ++ [x]) bytes p with hsame | ⟨rfl, -⟩
      · exact hsame
      · exact absurd rfl hp
  have hfirst := fun p => hput _ (game ++ r) [1] p (hroads (prefix_refl _)) (hnot _)
  rw [spoiled, hput _ game [0] p, hfirst, Disk.entry_roads]
  · rw [hfirst, if_neg]
    · exact hroads (prefix_append game r)
    · intro heq
      have hlen := congrArg length heq
      simp only [length_append, length_singleton] at hlen
      omega
  · rw [hfirst]
    split_ifs
    · intro h
      cases h
    · exact hnot game

/-- Nothing is deep, and the files have the byte 1, but for the one that is written over. -/
def Spoiling (e : Site) (depth : Nat) (but : Path → Prop) (s : Run) : Prop :=
  (∀ m ∈ e.mounts, ∀ p, (s.disk.entry (m ++ p)).isSome → p.length ≤ depth) ∧
    ∀ p b, s.disk.entry p = some (.file b) → b = [1] ∨ but p

theorem Spoiling.grown {depth : Nat} {but but' : Path → Prop} {s t : Run} {path : Path}
    {source : Bytes → Prop} (hbelow : ∀ m ∈ e.mounts, m <+: e.dest → m = e.dest)
    (h : Spoiling e depth but s) (hlen : path.length ≤ depth)
    (hgrown : Grown e F path source s t) (hsource : ∀ b, source b → b = [1])
    (hbut : ∀ p, but p → p ≠ e.dest ++ path → but' p) : Spoiling e depth but' t := by
  refine ⟨fun m hm p hp => ?_, fun p b hp => ?_⟩
  · rcases hgrown.places _ hp with hold | ⟨q, hq, heq⟩
    · exact h.1 m hm p hold
    · exact (length_le_of_notBelow hbelow hm heq.symm).trans (hq.trans hlen)
  · rcases hgrown.contents p b hp with ⟨hold, hne⟩ | ⟨-, hb⟩
    · exact (h.2 p b hold).imp_right fun hbutp => hbut p hbutp hne
    · exact .inl (hsource b hb)

theorem Spoiling.length_le {depth : Nat} {but : Path → Prop} (h : Spoiling e depth but s)
    {path : Path} (hkind : (isDirectory e s path).isSome) : path.length ≤ depth := by
  obtain ⟨b, hkind⟩ := Option.isSome_iff_exists.mp hkind
  obtain ⟨entry, hstat, -⟩ := stat_of_isDirectory hkind
  obtain ⟨m, hm, hentry⟩ := exists_of_stat hstat
  exact h.1 m hm path (by rw [hentry]; rfl)

/-- **What is written is read**: where all other files have the byte 1, a file that the only
unit is written over does not have its byte 0 any more. -/
theorem compileGame_spoils (htidy : Tidy e F) (hbelow : ∀ m ∈ e.mounts, m <+: e.dest → m = e.dest)
    {unit : Path} {depth : Nat} (hunits : e.program.units = [⟨some unit, some [1]⟩])
    (hheld : e.program.isHeld unit = false) (hunit : IsFilePath F unit)
    (hlen : unit.length ≤ depth) {disk : Disk}
    (hstart : Neat e F ⟨mkdir e.os disk e.dest, 0⟩ ∧
      Spoiling e depth (· = e.dest ++ unit) ⟨mkdir e.os disk e.dest, 0⟩) :
    ∃ text t, (compileGame e).result ⟨disk, 0⟩ = some (.ok text, t) ∧
      ∀ p b, t.disk.entry p = some (.file b) → b = [1] := by
  have hkeeps : ∀ written, (restWalk e written).Keeps
      (fun s => Neat e F s ∧ Spoiling e depth (fun _ => False) s) fun _ _ => False := by
    intro written
    refine restWalk_neat htidy.os fun s t path hs hkind hgrown => ?_
    exact hs.grown hbelow (hs.length_le hkind) hgrown
      (fun b ⟨p, hp⟩ => (hs.2 p b hp).resolve_right id) fun _ hp _ => hp
  have hstages : Stages e (· = ⟨disk, 0⟩)
      (fun s => Neat e F s ∧ Spoiling e depth (· = e.dest ++ unit) s)
      (fun _ s => Neat e F s ∧ Spoiling e depth (fun _ => False) s)
      (fun s => Neat e F s ∧ Spoiling e depth (fun _ => False) s) fun _ _ => False := {
    made := fun s hs => hs ▸ hstart
    checked := Walk.walk_does htidy.unitWalk_keeps []
    compiled := htidy.compileProgram_does
    units := by
      rw [hunits, writeUnits]
      dsimp only
      rw [hheld]
      refine @Does.bind _ _ _ _ _
        (fun _ s => Neat e F s ∧ Spoiling e depth (fun _ => False) s) _ _ _ _
        (fun s r hs hr => ?_) fun _ => .pure fun _ ht => ht
      refine ((putFile_does htidy.os hunit [1] _).mono (fun _ ht => ⟨ht, hs.1⟩)
        (fun _ t hgrown => ?_) fun _ _ he => he) s r rfl hr
      exact ⟨hgrown.neat, hs.2.grown hbelow hlen hgrown (fun _ hb => hb) fun p hp hne =>
        absurd hp hne⟩
    lton := htidy.writeLton_does fun _ hs => hs.1
    rest := fun written => Walk.walk_does (hkeeps written) [] }
  -- nothing gets deep, so that both walks end
  have hcheck : ∀ s, Neat e F s ∧ Spoiling e depth (· = e.dest ++ unit) s →
      (checkAllUnits e []).Ends s :=
    Walk.walk_ends htidy.unitWalk_keeps
      (fun _ _ ht hkind => ht.2.length_le (Option.isSome_iff_exists.mpr ⟨_, hkind⟩))
      (fun _ => ends_pure ()) checkUnit_ends []
  have hrest : ∀ written s, Neat e F s ∧ Spoiling e depth (fun _ => False) s →
      (copyRest e written []).Ends s := fun written =>
    Walk.walk_ends (hkeeps written)
      (fun _ _ ht hkind => ht.2.length_le (Option.isSome_iff_exists.mpr ⟨_, hkind⟩))
      (fun path => parents_ends (path ++ ["x"])) (copyFile_ends written) []
  have hends := hstages.ends hcheck hrest ⟨disk, 0⟩ rfl
  obtain ⟨⟨_ | text, t⟩, hr⟩ := ends_iff.mp hends
  · exact (hstages.does _ _ rfl hr).elim
  · have hpost := hstages.does _ _ rfl hr
    exact ⟨text, t, hr, fun p b hp => (hpost.2.2 p b hp).resolve_right id⟩

theorem not_faithful_above {dest r : Path} {behind : List Path} (hr : r ≠ [])
    (hbelow : ∀ m ∈ (dest ++ r) :: behind, m <+: dest → m = dest) :
    ∃ program disk, ¬ Faithful ⟨.willing, dest ++ r, behind, program, dest⟩ disk := by
  obtain ⟨x, hx⟩ := Infinite.exists_notMem_finset ("conf.lton" :: (dest ++ r ++ r)).toFinset
  rw [mem_toFinset, mem_cons, not_or] at hx
  obtain ⟨hconf, hx⟩ := hx
  have hxdest : ∀ n ∈ dest ++ r ++ r, n ≠ x := fun n hn heq => hx (heq ▸ hn)
  refine ⟨plainProgram [r ++ [x]], spoiled (dest ++ r) r x, ?_⟩
  have hentry : ∀ p, (spoiled (dest ++ r) r x).entry p = _ := fun p => entry_spoiled hx
  have hunit : IsFilePath (· = x) (r ++ [x]) :=
    ⟨r, x, rfl, rfl, fun m hm => hxdest m (mem_append_right _ hm)⟩
  have htidy : Tidy ⟨.willing, dest ++ r, behind, plainProgram [r ++ [x]], dest⟩ (· = x) :=
    plainProgram_tidy (fun path hpath => mem_singleton.mp hpath ▸ hunit) fun h => hconf h.symm
  have hdest : (spoiled (dest ++ r) r x).entry dest = some .directory := by
    have hpre : dest <+: dest ++ r ++ r := by
      rw [append_assoc]
      exact prefix_append dest _
    rw [hentry, if_neg, if_neg, if_pos hpre]
    all_goals exact fun heq => hx (hpre.subset (heq ▸ by simp))
  have hneat : Neat ⟨.willing, dest ++ r, behind, plainProgram [r ++ [x]], dest⟩ (· = x)
      ⟨spoiled (dest ++ r) r x, 0⟩ := by
    refine ⟨hdest, fun path hdir n hn => ?_, fun path bytes hfile => ?_⟩
    · rw [hentry] at hdir
      split_ifs at hdir with h1 h2 h3
      · cases hdir
      · cases hdir
      · exact hxdest n (h3.subset hn)
    · rw [hentry] at hfile
      split_ifs at hfile with h1 h2 h3
      · exact ⟨_, x, h1, rfl⟩
      · exact ⟨_, x, h2, rfl⟩
      · cases hfile
  obtain ⟨depth, hdepth⟩ := (spoiled (dest ++ r) r x).shallow
  have hspoil : Spoiling ⟨.willing, dest ++ r, behind, plainProgram [r ++ [x]], dest⟩
      (max depth (r ++ [x]).length) (· = dest ++ (r ++ [x])) ⟨spoiled (dest ++ r) r x, 0⟩ := by
    refine ⟨fun m _ p hp => ?_, fun p b hp => ?_⟩
    · have hle := hdepth _ hp
      rw [length_append] at hle
      omega
    · rw [hentry] at hp
      split_ifs at hp with h1 h2 h3
      · exact .inr (by rw [h1, append_assoc])
      · exact .inl (Entry.file.inj (Option.some.inj hp)).symm
      · cases hp
  obtain ⟨text, t, hresult, hbytes⟩ := compileGame_spoils htidy hbelow rfl rfl hunit
    (Nat.le_max_right depth _) ⟨by rw [mkdir_of_some hdest]; exact hneat, by
      rw [mkdir_of_some hdest]; exact hspoil⟩
  rintro ⟨r', t', hresult', -, hcopied⟩
  rw [hresult] at hresult'
  cases hresult'
  have hfile : (spoiled (dest ++ r) r x).entry (dest ++ r ++ [x]) = some (.file [0]) := by
    rw [hentry, if_pos rfl]
  have hcompiled : ¬ Compiled (plainProgram [r ++ [x]]) [x] := by
    rintro (h | ⟨u, hu, hpath, -⟩)
    · exact hconf (List.cons.inj h).1
    · obtain rfl := mem_singleton.mp hu
      have hlen := congrArg length (Option.some.inj hpath)
      rw [length_append] at hlen
      exact hr (length_eq_zero_iff.mp (by omega))
  have hthere := hcopied ⟨text, rfl⟩ [x] [0] (cons_ne_nil x []) hfile hcompiled
  have hsame := hbytes _ _ hthere
  exact absurd hsame (by decide)

/-- **Where a game may be compiled to**: whatever lies on the disk, whatever the program is
and the system refuses, it ends with a copy, exactly where the destination is not below what
is mounted and not above the game. -/
theorem compileGame_faithful_iff (game : Path) (behind : List Path) (dest : Path) :
    (∀ os program disk, Faithful ⟨os, game, behind, program, dest⟩ disk) ↔
      Separate game behind dest := by
  constructor
  · intro hall
    have hbelow : ∀ m ∈ game :: behind, m <+: dest → m = dest := by
      intro m hm hpre
      by_contra hne
      exact not_faithful_below hm hpre hne (hall _ _ _)
    refine ⟨hbelow, fun ⟨r, heq⟩ => ?_⟩
    by_contra hne
    have hr : r ≠ [] := by
      rintro rfl
      exact hne ((append_nil dest).symm.trans heq)
    subst heq
    obtain ⟨program, disk, hnot⟩ := not_faithful_above hr hbelow
    exact hnot (hall _ _ _)
  · intro hsep os program disk
    exact compileGame_faithful hsep disk

/-! ## A game that holds its destination -/

/-- A directory with `main.lh` and `a.txt`. -/
def smallGame : Disk :=
  (writeBytes .willing (writeBytes .willing (Disk.roads ["game"]) ["game", "main.lh"] [2]).1
    ["game", "a.txt"] [3]).1

/-- It is compiled to the directory `out` in it. -/
def smallSite : Site :=
  ⟨.willing, ["game"], [], plainProgram [["main.lh"]], ["game", "out"]⟩

/-- **A game compiled into itself**: the walk does not end. -/
theorem compileGame_into_itself : ¬ (compileGame smallSite).Ends ⟨smallGame, 0⟩ ∧
    ¬ Faithful smallSite smallGame := by
  have hlist : (mkdir .willing smallGame ["game", "out"]).entries.entries =
      [⟨["game", "out"], .directory⟩, ⟨["game", "a.txt"], .file [3]⟩,
        ⟨["game", "main.lh"], .file [2]⟩, ⟨["game"], .directory⟩, ⟨[], .directory⟩] := by
    decide
  have hmem : ∀ p entry, (mkdir .willing smallGame ["game", "out"]).entry p = some entry →
      (⟨p, entry⟩ : Sigma fun _ : Path => Entry) ∈
        ([⟨["game", "out"], .directory⟩, ⟨["game", "a.txt"], .file [3]⟩,
          ⟨["game", "main.lh"], .file [2]⟩, ⟨["game"], .directory⟩, ⟨[], .directory⟩] :
          List (Sigma fun _ : Path => Entry)) := fun p entry h =>
    hlist ▸ AList.mem_lookup_iff.mp h
  have hneat : Neat smallSite (· ∈ ["main.lh", "a.txt"])
      ⟨mkdir .willing smallGame ["game", "out"], 0⟩ := by
    refine ⟨by decide, fun path hdir n hn => ?_, fun path bytes hfile => ?_⟩
    · have hcases := hmem path _ hdir
      simp only [mem_cons, Sigma.mk.injEq, not_mem_nil, or_false] at hcases
      rcases hcases with ⟨rfl, -⟩ | ⟨-, h⟩ | ⟨-, h⟩ | ⟨rfl, -⟩ | ⟨rfl, -⟩
      · revert n
        decide
      · cases h
      · cases h
      · revert n
        decide
      · cases hn
    · have hcases := hmem path _ hfile
      simp only [mem_cons, Sigma.mk.injEq, not_mem_nil, or_false] at hcases
      rcases hcases with ⟨-, h⟩ | ⟨rfl, -⟩ | ⟨rfl, -⟩ | ⟨-, h⟩ | ⟨-, h⟩
      · cases h
      · exact ⟨["game"], "a.txt", rfl, by decide⟩
      · exact ⟨["game"], "main.lh", rfl, by decide⟩
      · cases h
      · cases h
  have htidy : Tidy smallSite (· ∈ ["main.lh", "a.txt"]) :=
    plainProgram_tidy (fun path hpath => mem_singleton.mp hpath ▸
      ⟨[], "main.lh", rfl, by decide, fun m hm => absurd hm not_mem_nil⟩) (by decide)
  have hnever : ¬ (compileGame smallSite).Ends ⟨smallGame, 0⟩ :=
    compileGame_never htidy mem_cons_self rfl
      (cons_ne_nil _ _) hneat
  exact ⟨hnever, fun ⟨_, _, hresult, _⟩ => hnever (ends_of_result hresult)⟩

end Lhatove.Lh
