import Lhatove.Lh.CompileGame

/-!
# Copies of compiled games

Where the destination is the game itself, or neither lies inside the other, and it is not
inside anything else that is mounted, the walk sees the same files all the time, and so it
ends with a copy.

- `Separate`: where the destination lies;
- `Kept`: what all steps keep;
- `compileGame_faithful`.
-/

namespace Lhatove.Lh

open LoopM Does List

/-- The destination is not below what is mounted, and not above the game. -/
structure Separate (game : Path) (behind : List Path) (dest : Path) : Prop where
  notBelow : ∀ m ∈ game :: behind, m <+: dest → m = dest
  notAbove : dest <+: game → dest = game

variable {e : Site}

variable {p q : Path}

theorem length_le_of_notBelow (h : ∀ m ∈ e.mounts, m <+: e.dest → m = e.dest) {m : Path}
    (hm : m ∈ e.mounts) (heq : e.dest ++ p = m ++ q) : q.length ≤ p.length := by
  have hlen : e.dest.length + p.length = m.length + q.length := by
    rw [← length_append, heq, length_append]
  rcases Nat.lt_or_ge m.length e.dest.length with hlt | hge
  · have hpre : m <+: e.dest :=
      prefix_of_prefix_length_le (heq ▸ prefix_append m q) (prefix_append e.dest p)
        hlt.le
    rw [h m hm hpre] at hlt
    exact absurd hlt (lt_irrefl _)
  · omega

/-- What is written to a path of the destination is no other path of the game. -/
theorem Separate.path_eq (h : Separate e.game e.behind e.dest) (heq : e.dest ++ p = e.game ++ q) :
    p = q := by
  have hgame : e.dest = e.game := by
    rcases Nat.le_total e.dest.length e.game.length with hle | hle
    · exact h.notAbove (prefix_of_prefix_length_le (prefix_append e.dest p)
        (heq ▸ prefix_append e.game q) hle)
    · exact (h.notBelow e.game mem_cons_self (prefix_of_prefix_length_le
        (heq ▸ prefix_append e.game q) (prefix_append e.dest p) hle)).symm
  rw [hgame] at heq
  exact append_cancel_left heq

/-! ## What the walks see -/

/-- Nothing but the destination changed; nothing that is mounted is deep; and what the game
had is there, but for what was written in its place. -/
structure Kept (e : Site) (disk : Disk) (depth : Nat) (written : List Path) (s : Run) : Prop where
  outside : Outside e disk s
  shallow : ∀ m ∈ e.mounts, ∀ p, (s.disk.entry (m ++ p)).isSome → p.length ≤ depth
  directories : ∀ p, disk.entry (e.game ++ p) = some .directory →
    s.disk.entry (e.game ++ p) = some .directory
  files : ∀ p bytes, p ∉ written → disk.entry (e.game ++ p) = some (.file bytes) →
    s.disk.entry (e.game ++ p) = some (.file bytes)

variable {disk : Disk} {depth : Nat} {written : List Path} {s : Run}

theorem Kept.grow (hsep : Separate e.game e.behind e.dest) (h : Kept e disk depth written s) {t : Run}
    (hgrow : ∀ path, t.disk.entry path = s.disk.entry path ∨
      (∃ q, q.length ≤ depth ∧ path = e.dest ++ q) ∧ s.disk.entry path = none) :
    Kept e disk depth written t := by
  have hsame : ∀ path entry, s.disk.entry path = some entry →
      t.disk.entry path = some entry := by
    intro path entry hentry
    rcases hgrow path with hpath | ⟨-, hnone⟩
    · rw [hpath, hentry]
    · rw [hentry] at hnone
      cases hnone
  constructor
  · intro path hpath
    rcases hgrow path with hsame | ⟨⟨q, -, rfl⟩, -⟩
    · rw [hsame, h.outside path hpath]
    · exact absurd (prefix_append e.dest q) hpath
  · intro m hm p hp
    rcases hgrow (m ++ p) with hsame | ⟨⟨q, hq, heq⟩, -⟩
    · exact h.shallow m hm p (hsame ▸ hp)
    · exact (length_le_of_notBelow hsep.notBelow hm heq.symm).trans hq
  · exact fun p hp => hsame _ _ (h.directories p hp)
  · exact fun p bytes hp hfile => hsame _ _ (h.files p bytes hp hfile)

variable {bytes : Bytes}

/-- A file is written at the destination: one that is not looked for any more, or one with
the bytes that the game has there. -/
theorem Kept.write (hsep : Separate e.game e.behind e.dest) (h : Kept e disk depth written s)
    {written' : List Path} (hlen : p.length ≤ depth) (hsub : written ⊆ written')
    (hbytes : p ∈ written' ∨ ∀ b, s.disk.entry (e.game ++ p) = some (.file b) → b = bytes)
    (hok : (writeBytes e.os s.disk (e.dest ++ p) bytes).2 = true) :
    Kept e disk depth written' { s with disk := (writeBytes e.os s.disk (e.dest ++ p) bytes).1 } := by
  have hcases := entry_writeBytes e.os s.disk (e.dest ++ p) bytes
  constructor
  · intro path hpath
    rcases hcases path with hsame | ⟨rfl, -⟩
    · exact hsame.trans (h.outside path hpath)
    · exact absurd (prefix_append e.dest p) hpath
  · intro m hm q hq
    rcases hcases (m ++ q) with hsame | ⟨heq, -⟩
    · exact h.shallow m hm q (hsame ▸ hq)
    · exact (length_le_of_notBelow hsep.notBelow hm heq.symm).trans hlen
  · exact fun q hq => entry_writeBytes_directory (h.directories q hq)
  · intro q b hq hfile
    have hbefore := h.files q b (fun hmem => hq (hsub hmem)) hfile
    rcases hcases (e.game ++ q) with hsame | ⟨heq, -⟩
    · exact hsame.trans hbefore
    · obtain rfl := hsep.path_eq heq.symm
      rcases hbytes with hmem | hbytes
      · exact absurd hmem hq
      · rw [hbytes b hbefore, heq]
        exact entry_writeBytes_of_ok hok

theorem Kept.outside_write (h : Kept e disk depth written s) (p : Path) (bytes : Bytes) :
    Outside e disk { s with disk := (writeBytes e.os s.disk (e.dest ++ p) bytes).1 } := by
  intro path hpath
  rcases entry_writeBytes e.os s.disk (e.dest ++ p) bytes path with hsame | ⟨rfl, -⟩
  · exact hsame.trans (h.outside path hpath)
  · exact absurd (prefix_append e.dest p) hpath

theorem Kept.parents (hsep : Separate e.game e.behind e.dest) (h : Kept e disk depth written s)
    {unit : Path}
    (hlen : unit.length ≤ depth + 1) :
    Kept e disk depth written { s with disk := makeParents e.os s.disk e.dest unit } := by
  refine h.grow hsep fun path => ?_
  rcases entry_makeParents e.os s.disk e.dest unit path with
    hsame | ⟨⟨q, -, hpre, hproper, rfl⟩, hnone, -⟩
  · exact .inl hsame
  · refine .inr ⟨⟨q, ?_, rfl⟩, hnone⟩
    have hne : q.length ≠ unit.length := fun heq => hproper (hpre.eq_of_length heq)
    have hle := hpre.length_le
    omega

variable {path : Path}

theorem Kept.length_le (h : Kept e disk depth written s) {entry : Entry}
    (hstat : stat e.mounts s.disk path = some entry) : path.length ≤ depth := by
  obtain ⟨m, hm, hentry⟩ := exists_of_stat hstat
  exact h.shallow m hm path (by rw [hentry]; rfl)

theorem stat_of_isDirectory {b : Bool} (h : isDirectory e s path = some b) :
    ∃ entry, stat e.mounts s.disk path = some entry ∧ decide (entry = .directory) = b :=
  Option.map_eq_some_iff.mp h

theorem Kept.walk_length_le (h : Kept e disk depth written s) {b : Bool}
    (hkind : isDirectory e s path = some b) : path.length ≤ depth := by
  obtain ⟨entry, hstat, -⟩ := stat_of_isDirectory hkind
  exact h.length_le hstat

/-! ## The steps -/

theorem unitWalk_keeps (hP : Kept e disk depth written s) :
    (unitWalk e).Keeps (· = s) fun _ t => Outside e disk t where
  enter _ _ := .pure fun _ ht => ht.1
  visit path _ := by
    have hquiet : Does (fun t => t = s ∧ isDirectory e t path = some false) (checkUnit e path)
        (fun _ t => t = s) fun _ t => Outside e disk t := by
      unfold checkUnit
      split_ifs
      · rcases e.program.check path with _ | _ | _
        · exact throw fun t ht => ht.1 ▸ hP.outside
        · exact throw fun t ht => ht.1 ▸ hP.outside
        · exact .pure fun t ht => ht.1
      · exact .pure fun t ht => ht.1
    exact hquiet

theorem checkAllUnits_ends (hs : Kept e disk depth written s) : (checkAllUnits e []).Ends s :=
  Walk.walk_ends (unitWalk_keeps hs) (fun t _ ht hkind => (ht ▸ hs).walk_length_le hkind)
    (fun _ => ends_pure ()) checkUnit_ends [] s rfl

/-- What was written goes out compiled. -/
def Units (e : Site) (disk : Disk) (depth : Nat) (written : List Path) (s : Run) : Prop :=
  Kept e disk depth written s ∧ ∀ p ∈ written, Compiled e.program p

theorem checkAllUnits_does :
    Does (Units e disk depth written) (checkAllUnits e []) (fun _ => Units e disk depth written)
      fun _ t => Outside e disk t := by
  intro s r hs hr
  exact ((Walk.walk_does (unitWalk_keeps hs.1) []).mono (fun _ ht => ht) (fun _ _ ht => ht ▸ hs)
    fun _ _ he => he) s r rfl hr

theorem compileProgram_does :
    Does (Units e disk depth written) (compileProgram e) (fun _ => Units e disk depth written)
      fun _ t => Outside e disk t := by
  unfold compileProgram
  split_ifs
  · exact .pure fun _ hs => hs
  · exact throw fun _ hs => hs.1.outside

theorem writeUnit_does (hsep : Separate e.game e.behind e.dest) {unit : Path} {trouble : String}
    (hlen : unit.length ≤ depth) (hcompiled : Compiled e.program unit) :
    Does (Units e disk depth written) (write e (e.dest ++ unit) bytes trouble)
      (fun _ => Units e disk depth (written.insert unit)) fun _ t => Outside e disk t := by
  refine write_does (fun s hs hok => ⟨?_, ?_⟩) fun s hs _ => hs.1.outside_write unit bytes
  · exact hs.1.write hsep hlen (fun p hp => mem_insert_of_mem hp)
      (.inl mem_insert_self) hok
  · intro p hp
    rcases mem_insert_iff.mp hp with rfl | hp
    · exact hcompiled
    · exact hs.2 p hp

theorem writeUnits_does (hsep : Separate e.game e.behind e.dest) {units : List ProgramUnit}
    (hunits : ∀ u ∈ units, u ∈ e.program.units)
    (hlen : ∀ u ∈ units, ∀ p, u.path = some p → p.length ≤ depth) :
    Does (Units e disk depth written) (writeUnits e units written) (Units e disk depth)
      fun _ t => Outside e disk t := by
  induction units generalizing written with
  | nil => exact .pure fun _ hs => hs
  | cons u units ih =>
    have hrest := fun written => @ih written (fun v hv => hunits v (mem_cons_of_mem u hv))
      fun v hv => hlen v (mem_cons_of_mem u hv)
    rcases hu : u with ⟨_ | unit, binary⟩
    · exact hrest written
    have hpath : u.path = some unit := by rw [hu]
    rw [writeUnits]
    dsimp only
    split_ifs with hheld
    · exact hrest written
    · rcases binary with _ | bytes
      · exact throw fun _ hs => hs.1.outside
      · have hunit : unit.length ≤ depth := hlen u mem_cons_self unit hpath
        have hcompiled : Compiled e.program unit :=
          .inr ⟨u, hunits u mem_cons_self, hpath, Bool.eq_false_iff.mpr hheld⟩
        refine .bind (.bind (parents_does fun s hs => ?_) fun _ =>
          writeUnit_does hsep hunit hcompiled) fun _ => hrest _
        exact ⟨hs.1.parents hsep (by omega), hs.2⟩

theorem writeLton_does (hsep : Separate e.game e.behind e.dest) (hlen : 1 ≤ depth) :
    Does (Units e disk depth written) (writeLton e written) (Units e disk depth)
      fun _ t => Outside e disk t := by
  refine get_bind fun s hs => ?_
  split_ifs
  · rcases stat e.mounts s.disk confLton with _ | _ | data
    · exact throw fun t ht => ht ▸ hs.1.outside
    · exact throw fun t ht => ht ▸ hs.1.outside
    · dsimp only
      rcases e.program.ltonWrite data with why | bytes
      · exact throw fun t ht => ht ▸ hs.1.outside
      · refine .bind ((writeUnit_does hsep hlen (.inl rfl)).mono (fun t ht => ht ▸ hs)
          (fun _ _ hq => hq) fun _ _ he => he) fun _ => .pure fun _ ht => ht
  · exact .pure fun t ht => ht ▸ hs

/-! ## The walk that copies -/

/-- A file went out with the bytes that were seen, and nothing else that was there changed. -/
structure CopiedTo (e : Site) (path : Path) (s t : Run) : Prop where
  there : ∃ bytes, stat e.mounts s.disk path = some (.file bytes) ∧
    t.disk.entry (e.dest ++ path) = some (.file bytes)
  others : ∀ p entry, p ≠ e.dest ++ path → s.disk.entry p = some entry →
    t.disk.entry p = some entry

/-- **What copying a file does.** -/
theorem copyFile_does (hsep : Separate e.game e.behind e.dest) (path : Path) :
    Does (fun t => t = s ∧ Kept e disk depth written s ∧ isDirectory e s path = some false)
      (copyFile e written path)
      (fun _ t => Kept e disk depth written t ∧
        (path ∈ written ∧ t = s ∨ path ∉ written ∧ CopiedTo e path s t))
      fun _ t => Outside e disk t := by
  unfold copyFile
  split_ifs with hwritten
  · rintro t r ⟨rfl, hP, -⟩ hr
    rw [result_pure] at hr
    cases hr
    exact ⟨hP, .inl ⟨hwritten, rfl⟩⟩
  refine get_bind fun t => ?_
  rintro ⟨rfl, hP, hkind⟩
  rcases hstat : stat e.mounts t.disk path with _ | _ | bytes
  · exact throw fun u hu => hu ▸ hP.outside
  · exact throw fun u hu => hu ▸ hP.outside
  have hlen : path.length ≤ depth := hP.length_le hstat
  -- the parents first, and then the bytes
  refine @Does.bind _ _ _ _ _
    (fun _ u => Kept e disk depth written u ∧ CopiedTo e path t u) _ _ _ _ ?_ fun _ => ?_
  · refine @Does.bind _ _ _ _ _
      (fun _ u => u = { t with disk := makeParents e.os t.disk e.dest path }) _ _ _ _
      (parents_does fun u hu => hu ▸ rfl) fun _ => ?_
    refine write_does (fun u hu hok => ⟨?_, ?_, ?_⟩) fun u hu _ => ?_
    · subst hu
      refine (hP.parents hsep (by omega)).write hsep hlen (.refl _) (.inr ?_) hok
      intro b hb
      rcases entry_makeParents e.os t.disk e.dest path (e.game ++ path) with hsame | ⟨-, -, hdir⟩
      · have hfirst : stat e.mounts t.disk path = some (.file b) := stat_first (hsame ▸ hb)
        rw [hstat] at hfirst
        exact (Entry.file.inj (Option.some.inj hfirst)).symm
      · rw [show _ = _ from hb] at hdir
        cases hdir
    · exact ⟨bytes, hstat, entry_writeBytes_of_ok hok⟩
    · intro p entry hp hentry
      rcases entry_writeBytes e.os u.disk (e.dest ++ path) bytes p with hsame | ⟨rfl, -⟩
      · rw [show _ = _ from hsame, hu]
        exact entry_makeParents_of_some hentry
      · exact absurd rfl hp
    · subst hu
      exact (hP.parents hsep (by omega)).outside_write path bytes
  · exact modify fun u hu =>
      ⟨⟨hu.1.outside, hu.1.shallow, hu.1.directories, hu.1.files⟩,
        .inr ⟨hwritten, hu.2.there, hu.2.others⟩⟩

theorem restWalk_keeps (hsep : Separate e.game e.behind e.dest) :
    (restWalk e written).Keeps (Kept e disk depth written) fun _ t => Outside e disk t where
  enter path _ := by
    refine parents_does fun s hs => hs.1.parents hsep ?_
    have hlen := hs.1.walk_length_le hs.2
    rw [length_append, length_singleton]
    omega
  visit path _ := by
    intro s r hs hr
    exact ((copyFile_does hsep path).mono (fun _ ht => ⟨ht, hs.1, hs.2⟩) (fun _ _ hq => hq.1)
      fun _ _ he => he) s r rfl hr

theorem found_of_file {dir : Path} (hs : Kept e disk depth written s) (hne : path ≠ [])
    (hfile : disk.entry (e.game ++ (dir ++ path)) = some (.file bytes))
    (hwritten : dir ++ path ∉ written) : (restWalk e written).Found s dir path := by
  have hitem : ∀ dir n entry, s.disk.entry (e.game ++ (dir ++ [n])) = some entry →
      n ∈ items e s dir ∧ isDirectory e s (dir ++ [n]) = some (decide (entry = .directory)) := by
    intro dir n entry hentry
    constructor
    · refine mem_getDirectoryItems.mpr ⟨e.game, mem_cons_self, ?_⟩
      rw [append_assoc, hentry]
      rfl
    · rw [isDirectory, Site.mounts, stat_first hentry]
      rfl
  induction path generalizing dir with
  | nil => exact absurd rfl hne
  | cons n path ih =>
    cases path with
    | nil => exact hitem dir n _ (hs.files _ bytes hwritten hfile)
    | cons m path =>
      have hsplit : dir ++ n :: m :: path = dir ++ [n] ++ (m :: path) := by simp
      rw [hsplit] at hfile hwritten
      have habove : disk.entry (e.game ++ (dir ++ [n])) = some .directory := by
        rw [← append_assoc] at hfile
        exact Disk.entry_above hfile (cons_ne_nil m path)
      obtain ⟨hmem, hkind⟩ := hitem dir n _ (hs.directories _ habove)
      exact ⟨hmem, hkind, ih (cons_ne_nil m path) hfile hwritten⟩

/-- **A file of the game that was not written is copied.** -/
theorem copyRest_copies (hsep : Separate e.game e.behind e.dest) (hne : path ≠ [])
    (hfile : disk.entry (e.game ++ path) = some (.file bytes)) (hwritten : path ∉ written) :
    Does (Kept e disk depth written) (copyRest e written [])
      (fun _ t => Kept e disk depth written t ∧
        t.disk.entry (e.dest ++ path) = some (.file bytes)) fun _ t => Outside e disk t := by
  have hseen : ∀ s, Kept e disk depth written s →
      stat e.mounts s.disk path = some (.file bytes) := by
    intro s hs
    exact stat_first (hs.files path bytes hwritten hfile)
  -- copying a file leaves the others, and this one has these bytes
  have hcopied : ∀ p s t, Kept e disk depth written s → CopiedTo e p s t →
      (p = path ∨ s.disk.entry (e.dest ++ path) = some (.file bytes)) →
      t.disk.entry (e.dest ++ path) = some (.file bytes) := by
    intro p s t hs hto hdone
    by_cases hp : p = path
    · subst hp
      obtain ⟨b, hstat, hthere⟩ := hto.there
      rw [hseen s hs] at hstat
      rw [hthere, ← Option.some.inj hstat]
    · exact hto.others _ _ (fun heq => hp (append_cancel_left heq).symm)
        (hdone.resolve_left hp)
  refine Walk.walk_visits (restWalk_keeps hsep) ⟨fun p _ => ?_, fun p _ => ?_⟩ ?_ fun s hs =>
    found_of_file hs hne hfile hwritten
  · refine parents_does fun s hs => ⟨?_, entry_makeParents_of_some hs.1.2⟩
    have hlen := hs.1.1.walk_length_le hs.2
    refine hs.1.1.parents hsep ?_
    rw [length_append, length_singleton]
    omega
  · intro s r hs hr
    refine ((copyFile_does hsep p).mono (fun _ ht => ⟨ht, hs.1.1, hs.2⟩) (fun _ t hq => ?_)
      fun _ _ he => he) s r rfl hr
    rcases hq.2 with ⟨-, rfl⟩ | ⟨-, hto⟩
    · exact ⟨hq.1, hs.1.2⟩
    · exact ⟨hq.1, hcopied p s t hs.1.1 hto (.inr hs.1.2)⟩
  · intro s r hs hr
    refine ((copyFile_does hsep path).mono (fun _ ht => ⟨ht, hs.1, hs.2⟩) (fun _ t hq => ?_)
      fun _ _ he => he) s r rfl hr
    rcases hq.2 with ⟨hmem, -⟩ | ⟨-, hto⟩
    · exact absurd hmem hwritten
    · exact ⟨hq.1, hcopied path s t hs.1 hto (.inl rfl)⟩

theorem copyRest_ends (hsep : Separate e.game e.behind e.dest) (hs : Kept e disk depth written s) :
    (copyRest e written []).Ends s :=
  Walk.walk_ends (restWalk_keeps hsep) (fun _ _ ht hkind => ht.walk_length_le hkind)
    (fun path => parents_ends (path ++ ["x"])) (copyFile_ends written) [] s hs

/-! ## The whole -/

theorem exists_kept (hsep : Separate e.game e.behind e.dest) (disk : Disk) : ∃ depth, 1 ≤ depth ∧
    (∀ u ∈ e.program.units, ∀ p, u.path = some p → p.length ≤ depth) ∧
    Kept e disk depth [] ⟨mkdir e.os disk e.dest, 0⟩ := by
  have hunits : ∃ depth, ∀ u ∈ e.program.units, ∀ p, u.path = some p → p.length ≤ depth := by
    induction e.program.units with
    | nil => exact ⟨0, fun u hu => absurd hu not_mem_nil⟩
    | cons u units ih =>
      obtain ⟨depth, hdepth⟩ := ih
      refine ⟨max (u.path.elim 0 length) depth, fun v hv p hp => ?_⟩
      rcases mem_cons.mp hv with rfl | hv
      · rw [hp]
        exact Nat.le_max_left _ _
      · exact (hdepth v hv p hp).trans (Nat.le_max_right _ _)
  obtain ⟨deepest, hdeepest⟩ := disk.shallow
  obtain ⟨units, hunits⟩ := hunits
  refine ⟨max (max deepest units) 1, Nat.le_max_right _ _, fun u hu p hp => ?_, ?_⟩
  · have hle := hunits u hu p hp
    omega
  have hstart : Kept e disk (max (max deepest units) 1) [] ⟨disk, 0⟩ := by
    refine ⟨fun _ _ => rfl, fun m _ p hp => ?_, fun _ h => h, fun _ _ _ h => h⟩
    have hle := hdeepest (m ++ p) hp
    rw [length_append] at hle
    omega
  refine hstart.grow hsep fun path => ?_
  rcases entry_mkdir e.os disk e.dest path with hsame | ⟨rfl, hnone, -⟩
  · exact .inl hsame
  · exact .inr ⟨⟨[], Nat.zero_le _, (append_nil _).symm⟩, hnone⟩

theorem copyRest_does (hsep : Separate e.game e.behind e.dest) :
    Does (Units e disk depth written) (copyRest e written [])
      (fun _ t => Outside e disk t ∧ Copied e disk t) fun _ t => Outside e disk t := by
  intro s r hs hr
  have hkept := Walk.walk_does (restWalk_keeps hsep) [] s r hs.1 hr
  rcases r with ⟨_ | _, t⟩
  · exact hkept
  · refine ⟨hkept.outside, fun path bytes hne hfile hcompiled => ?_⟩
    have hwritten : path ∉ written := fun hmem => hcompiled (hs.2 path hmem)
    exact (copyRest_copies hsep hne hfile hwritten s _ hs.1 hr).2

/-- **A copy is left** where the destination is separate. -/
theorem compileGame_faithful (hsep : Separate e.game e.behind e.dest) (disk : Disk) : Faithful e disk := by
  obtain ⟨depth, hdepth, hlen, hstart⟩ := exists_kept hsep disk
  have hstages : Stages e (· = ⟨disk, 0⟩) (Units e disk depth []) (Units e disk depth)
      (fun t => Outside e disk t ∧ Copied e disk t) fun _ t => Outside e disk t := {
    made := fun s hs => hs ▸ ⟨hstart, fun p hp => absurd hp not_mem_nil⟩
    checked := checkAllUnits_does
    compiled := compileProgram_does
    units := writeUnits_does hsep (fun _ hu => hu) hlen
    lton := fun _ => writeLton_does hsep hdepth
    rest := fun _ => copyRest_does hsep }
  obtain ⟨⟨r, t⟩, hr⟩ := ends_iff.mp (hstages.ends (fun s hs => checkAllUnits_ends hs.1)
    (fun _ s hs => copyRest_ends hsep hs.1) ⟨disk, 0⟩ rfl)
  have hpost := hstages.does _ _ rfl hr
  refine ⟨r, t, hr, ?_⟩
  rcases r with why | text
  · refine ⟨hpost, fun ⟨_, hok⟩ => ?_⟩
    cases hok
  · exact ⟨hpost.1, fun _ => hpost.2⟩

end Lhatove.Lh
