import Lhatove.Font.TextShaper

/-!
# What wrapping keeps of a text

The lines of `getWrap` against the text that they are made of.

- `Lossless`: the lines have all codepoints but the newlines, in order;
- `GoesBack`: a scan that breaks a line at its own start;
- `getWrap_lossless_iff`: when the lines of either shaper are lossless.
-/

namespace Lhatove.Font

open List Range WrapScan
open Option (map_eq_some_iff)
open Relation.ReflTransGen (cases_head)

variable {K : Type}

/-! ## Lines -/

/-- The ranges from an index on: increasing, inside the text, and with all of it but newlines. -/
structure Covers (cps : List Nat) (start : Nat) (ranges : List Range) : Prop where
  inside : ∀ r ∈ ranges, r.isValid = true → start ≤ r.first ∧ r.last < cps.length
  increasing : (ranges.filter Range.isValid).Pairwise fun r r' => r.last < r'.first
  complete : ∀ k (hk : k < cps.length), start ≤ k →
    ((∃ r ∈ ranges, r.Mem k) ↔ cps[k] ≠ newline)

/-- The lines are made, and have all codepoints but the newlines once. -/
def Lossless (cps : List Nat) (lines : Option (List (WrappedLine K))) : Prop :=
  ∃ wrapped, lines = some wrapped ∧ Covers cps 0 (wrapped.map WrappedLine.range)

/-- The rest of a line, from a codepoint of it. -/
def restOfLine (cps : List Nat) (i : Nat) : Range := Range.ofSize i (findNewline cps i - i)

/-- A turn of `getWrap` that is not at a newline: the line, and the next index. -/
def lineAt (cps : List Nat) (i wrapindex : Nat) : Range × Nat :=
  let next := if i < wrapindex then wrapindex else i + 1
  (if i < wrapindex then Range.ofSize i (wrapindex - i) else .invalid,
    if findNewline cps i = next then next + 1 else next)

/-- The turns of `getWrap`, where the newline that is next is known. -/
def linesFrom [Zero K] (cps : List Nat) (f : Range → Option (Nat × K)) :
    Nat → Nat → Option (List (WrappedLine K))
  | 0, i => if i < cps.length then none else some []
  | left + 1, i =>
    if i < cps.length then
      if findNewline cps i = i then
        (linesFrom cps f left (i + 1)).map fun lines => ⟨.invalid, 0⟩ :: lines
      else
        match f (restOfLine cps i) with
        | none => none
        | some (wrapindex, width) =>
          (linesFrom cps f left (lineAt cps i wrapindex).2).map fun lines =>
            ⟨(lineAt cps i wrapindex).1, width⟩ :: lines
    else some []

section

variable {cps : List Nat} {i : Nat}

theorem le_findNewline : i ≤ findNewline cps i := Nat.le_add_right _ _

theorem findNewline_le (h : i ≤ cps.length) : findNewline cps i ≤ cps.length := by
  have hle := ( takeWhile_prefix (· ≠ newline) (l := cps.drop i)).length_le
  rw [length_drop] at hle
  unfold findNewline
  omega

theorem findNewline_of_ge (h : cps.length ≤ i) : findNewline cps i = i := by
  unfold findNewline
  rw [drop_eq_nil_of_le h]
  rfl

theorem findNewline_succ (h : i < cps.length) :
    findNewline cps i = if cps[i] = newline then i else findNewline cps (i + 1) := by
  unfold findNewline
  rw [drop_eq_getElem_cons h, takeWhile_cons]
  by_cases hnewline : cps[i] = newline
  · rw [if_pos hnewline, if_neg (by simp [hnewline])]
    rfl
  · rw [if_neg hnewline, if_pos (by simp [hnewline]), length_cons]
    omega

theorem findNewline_eq_self_iff (h : i < cps.length) :
    findNewline cps i = i ↔ cps[i] = newline := by
  rw [findNewline_succ h]
  split
  · rename_i hnewline
    exact ⟨fun _ => hnewline, fun _ => rfl⟩
  · rename_i hnewline
    have hle := @le_findNewline cps (i + 1)
    constructor
    · intro heq
      omega
    · intro heq
      exact absurd heq hnewline

theorem findNewline_between {k : Nat} (hik : i ≤ k) (hk : k ≤ findNewline cps i) :
    findNewline cps k = findNewline cps i := by
  induction k, hik using Nat.le_induction with
  | base => rfl
  | succ k hik ih =>
    have hkept := ih (by omega)
    rcases Nat.lt_or_ge k cps.length with hlt | hge
    · rw [findNewline_succ hlt] at hkept
      split at hkept
      · omega
      · exact hkept
    · rw [findNewline_of_ge hge] at hkept
      omega

theorem ne_newline_of_lt {k : Nat} (hik : i ≤ k) (hk : k < findNewline cps i)
    (hlength : k < cps.length) : cps[k] ≠ newline := by
  intro hnewline
  have hsame := findNewline_between hik hk.le
  rw [(findNewline_eq_self_iff hlength).mpr hnewline] at hsame
  omega

/-- The index of a newline that was found before is still the next one, or behind. -/
theorem nextnewline_eq {nextnewline : Nat} (hnext : ∃ k, k ≤ i ∧ nextnewline = findNewline cps k) :
    (if nextnewline < i then findNewline cps i else nextnewline) = findNewline cps i := by
  obtain ⟨k, hk, rfl⟩ := hnext
  split
  · rfl
  · rename_i hle
    exact (findNewline_between hk (not_lt.mp hle)).symm

theorem lineAt_range {wrapindex : Nat} (h : i < wrapindex) :
    (lineAt cps i wrapindex).1 = ofSize i (wrapindex - i) :=
  if_pos h

theorem lineAt_invalid {wrapindex : Nat} (h : ¬ i < wrapindex) :
    (lineAt cps i wrapindex).1 = .invalid :=
  if_neg h

theorem lineAt_next {wrapindex : Nat} (h : i < wrapindex) :
    (lineAt cps i wrapindex).2 =
      if findNewline cps i = wrapindex then wrapindex + 1 else wrapindex := by
  unfold lineAt
  rw [if_pos h]

theorem lt_lineAt (wrapindex : Nat) : i < (lineAt cps i wrapindex).2 := by
  unfold lineAt
  dsimp only
  split <;> split <;> omega

variable [Zero K] {f : Range → Option (Nat × K)}

theorem wrapLoop_eq (left : Nat) {nextnewline : Nat} {lines : List (WrappedLine K)}
    (hnext : ∃ k, k ≤ i ∧ nextnewline = findNewline cps k) :
    wrapLoop cps f left i nextnewline lines =
      (linesFrom cps f left i).map fun rest => lines ++ rest := by
  induction left generalizing i nextnewline lines with
  | zero =>
    unfold wrapLoop linesFrom
    split <;> simp
  | succ left ih =>
    unfold wrapLoop linesFrom
    by_cases hi : i < cps.length
    · rw [if_pos hi, if_pos hi]
      dsimp only
      rw [nextnewline_eq hnext]
      by_cases hself : findNewline cps i = i
      · rw [if_pos hself, if_pos hself, ih ⟨i, Nat.le_succ i, rfl⟩]
        simp [Option.map_map, Function.comp_def]
      · rw [if_neg hself, if_neg hself]
        unfold restOfLine
        cases hf : f (ofSize i (findNewline cps i - i)) with
        | none => rfl
        | some result =>
          obtain ⟨wrapindex, width⟩ := result
          change wrapLoop cps f left (lineAt cps i wrapindex).2 (findNewline cps i)
            (lines ++ [⟨(lineAt cps i wrapindex).1, width⟩]) = _
          rw [ih ⟨i, (lt_lineAt wrapindex).le, rfl⟩]
          simp [Option.map_map, Function.comp_def]
    · rw [if_neg hi, if_neg hi]
      simp

theorem getWrap_eq : getWrap cps f = linesFrom cps f cps.length 0 := by
  unfold getWrap
  rw [wrapLoop_eq _ ⟨0, le_refl _, rfl⟩]
  simp

theorem linesFrom_more {left more : Nat} (hleft : cps.length ≤ left + i) (hmore : left ≤ more) :
    linesFrom cps f more i = linesFrom cps f left i := by
  induction left generalizing i more with
  | zero =>
    rw [linesFrom.eq_def cps f 0, linesFrom.eq_def]
    dsimp only
    rw [if_neg (by omega)]
    split
    all_goals rw [if_neg (by omega)]
  | succ left ih =>
    obtain ⟨more, rfl⟩ : ∃ m, more = m + 1 := ⟨more - 1, by omega⟩
    unfold linesFrom
    by_cases hi : i < cps.length
    · rw [if_pos hi, if_pos hi, ih (by omega) (by omega)]
      split
      · rfl
      · cases f (restOfLine cps i) with
        | none => rfl
        | some result =>
          have hlt := @lt_lineAt cps i result.1
          dsimp only
          rw [ih (by omega) (by omega)]
    · rw [if_neg hi, if_neg hi]

theorem linesFrom_newline (h : i < cps.length) (hnewline : cps[i] = newline) :
    linesFrom cps f cps.length i =
      (linesFrom cps f cps.length (i + 1)).map fun lines => ⟨.invalid, 0⟩ :: lines := by
  obtain ⟨left, hleft⟩ : ∃ n, cps.length = n + 1 := ⟨cps.length - 1, by omega⟩
  rw [@linesFrom_more _ cps (i + 1) _ f left cps.length (by omega) (by omega), hleft]
  conv_lhs => unfold linesFrom
  rw [if_pos h, if_pos ((findNewline_eq_self_iff h).mpr hnewline)]

theorem linesFrom_line (h : i < cps.length) (hnewline : cps[i] ≠ newline) {wrapindex : Nat}
    {width : K} (hf : f (restOfLine cps i) = some (wrapindex, width)) :
    linesFrom cps f cps.length i =
      (linesFrom cps f cps.length (lineAt cps i wrapindex).2).map fun lines =>
        ⟨(lineAt cps i wrapindex).1, width⟩ :: lines := by
  have hself : findNewline cps i ≠ i := fun heq => hnewline ((findNewline_eq_self_iff h).mp heq)
  have hnext := @lt_lineAt cps i wrapindex
  obtain ⟨left, hleft⟩ : ∃ n, cps.length = n + 1 := ⟨cps.length - 1, by omega⟩
  rw [@linesFrom_more _ cps (lineAt cps i wrapindex).2 _ f left cps.length (by omega)
    (by omega), hleft]
  conv_lhs => unfold linesFrom
  rw [if_pos h, if_neg hself, hf]

theorem linesFrom_fault (h : i < cps.length) (hnewline : cps[i] ≠ newline)
    (hf : f (restOfLine cps i) = none) : linesFrom cps f cps.length i = none := by
  have hself : findNewline cps i ≠ i := fun heq => hnewline ((findNewline_eq_self_iff h).mp heq)
  obtain ⟨left, hleft⟩ : ∃ n, cps.length = n + 1 := ⟨cps.length - 1, by omega⟩
  rw [hleft]
  unfold linesFrom
  rw [if_pos h, if_neg hself, hf]

theorem linesFrom_end (h : cps.length ≤ i) : linesFrom cps f cps.length i = some [] := by
  unfold linesFrom
  split <;> rw [if_neg (by omega)]

end

/-! ## Turns -/

/-- The index after a turn. -/
inductive Turn (cps : List Nat) (f : Range → Option (Nat × K)) : Nat → Nat → Prop
  | newline {i : Nat} (h : i < cps.length) : cps[i] = newline → Turn cps f i (i + 1)
  | line {i wrapindex : Nat} {width : K} (h : i < cps.length) : cps[i] ≠ newline →
    f (restOfLine cps i) = some (wrapindex, width) → Turn cps f i (lineAt cps i wrapindex).2

/-- The indices where lines start. -/
def LineStart (cps : List Nat) (f : Range → Option (Nat × K)) (i : Nat) : Prop :=
  Relation.ReflTransGen (Turn cps f) 0 i ∧ ∃ h : i < cps.length, cps[i] ≠ newline

/-- A break behind the start. -/
def Advances (cps : List Nat) (f : Range → Option (Nat × K)) (i : Nat) : Prop :=
  ∃ wrapindex width, f (restOfLine cps i) = some (wrapindex, width) ∧ i < wrapindex

section

variable {cps : List Nat}

/-- A line of the codepoints from `i` up to `stop`, with newlines behind it. -/
theorem covers_cons {i stop next : Nat} {r : Range} {rest : List Range}
    (hr : ∀ k, r.Mem k ↔ i ≤ k ∧ k < stop) (hstop : stop ≤ cps.length) (hnext : stop ≤ next)
    (hi : i ≤ stop) (hline : ∀ k (hk : k < cps.length), i ≤ k → k < stop → cps[k] ≠ newline)
    (hbehind : ∀ k (hk : k < cps.length), stop ≤ k → k < next → cps[k] = newline)
    (hrest : ∀ r' ∈ rest, r'.isValid = true → next ≤ r'.first) :
    Covers cps i (r :: rest) ↔ Covers cps next rest := by
  have hafter : ∀ k, next ≤ k → ((∃ r' ∈ r :: rest, r'.Mem k) ↔ ∃ r' ∈ rest, r'.Mem k) := by
    intro k hk
    constructor
    · rintro ⟨r', hr', hmem⟩
      rcases mem_cons.mp hr' with rfl | hr'
      · have hlt := (hr k).mp hmem
        omega
      · exact ⟨r', hr', hmem⟩
    · rintro ⟨r', hr', hmem⟩
      exact ⟨r', mem_cons_of_mem _ hr', hmem⟩
  have hbefore : ∀ k, k < next → ((∃ r' ∈ r :: rest, r'.Mem k) ↔ i ≤ k ∧ k < stop) := by
    intro k hk
    constructor
    · rintro ⟨r', hr', hmem⟩
      rcases mem_cons.mp hr' with rfl | hr'
      · exact (hr k).mp hmem
      · have hle := hrest r' hr' (isValid_of_mem hmem)
        have hfirst := hmem.1
        omega
    · intro hlt
      exact ⟨r, mem_cons_self, (hr k).mpr hlt⟩
  constructor
  · intro h
    refine ⟨?_, ?_, ?_⟩
    · intro r' hr' hvalid
      exact ⟨hrest r' hr' hvalid, (h.inside r' (mem_cons_of_mem _ hr') hvalid).2⟩
    · exact h.increasing.sublist ((sublist_cons_self r rest).filter _)
    · intro k hk hle
      rw [← hafter k hle]
      exact h.complete k hk (by omega)
  · intro h
    have hvalid : r.isValid = true → r.first = i ∧ r.last + 1 = stop := by
      intro hvalid
      have hle := isValid_iff.mp hvalid
      have hfirst := (hr r.first).mp ⟨le_refl _, hle⟩
      have hlast := (hr r.last).mp ⟨hle, le_refl _⟩
      have hmin := (hr i).mpr ⟨le_refl _, by omega⟩
      have hmax := (hr (stop - 1)).mpr ⟨by omega, by omega⟩
      have hle₁ := hmin.1
      have hle₂ := hmax.2
      omega
    refine ⟨?_, ?_, ?_⟩
    · intro r' hr' hr'valid
      rcases mem_cons.mp hr' with rfl | hr'
      · have hends := hvalid hr'valid
        omega
      · have hins := h.inside r' hr' hr'valid
        exact ⟨by omega, hins.2⟩
    · rw [filter_cons]
      split
      · rename_i hrvalid
        refine pairwise_cons.mpr ⟨?_, h.increasing⟩
        intro r' hr'
        obtain ⟨hr', hr'valid⟩ := mem_filter.mp hr'
        have hends := hvalid hrvalid
        have hle := hrest r' hr' hr'valid
        omega
      · exact h.increasing
    · intro k hk hle
      rcases Nat.lt_or_ge k next with hlt | hge
      · rw [hbefore k hlt]
        constructor
        · rintro ⟨-, hkstop⟩
          exact hline k hk hle hkstop
        · intro hne
          refine ⟨hle, ?_⟩
          by_contra hge
          exact hne (hbehind k hk (not_lt.mp hge) hlt)
      · rw [hafter k hge]
        exact h.complete k hk hge

theorem covers_nil {i : Nat} (h : cps.length ≤ i) : Covers cps i [] := by
  refine ⟨by simp, by simp, ?_⟩
  intro k hk hle
  omega

theorem mem_ofSize {i size : Nat} (hpos : 0 < size) (hlength : i + size < 2 ^ 64) (k : Nat) :
    (ofSize i size).Mem k ↔ i ≤ k ∧ k < i + size := by
  have hlast := @ofSize_last i size (by omega) hlength.le
  change i ≤ k ∧ k ≤ (ofSize i size).last ↔ _
  omega

theorem not_mem_invalid (k : Nat) : ¬ invalid.Mem k := by
  rintro ⟨hfirst, hlast⟩
  change 2 ^ 64 - 1 ≤ k at hfirst
  change k ≤ 0 at hlast
  omega

end

section

variable [Zero K] {cps : List Nat} {f : Range → Option (Nat × K)}

/-- The lines from an index on are made and lossless. -/
def LosslessFrom (cps : List Nat) (f : Range → Option (Nat × K)) (i : Nat) : Prop :=
  ∃ lines, linesFrom cps f cps.length i = some lines ∧
    Covers cps i (lines.map WrappedLine.range)

theorem first_of_linesFrom {left i : Nat} {lines : List (WrappedLine K)}
    (h : linesFrom cps f left i = some lines) :
    ∀ r ∈ lines.map WrappedLine.range, r.isValid = true → i ≤ r.first := by
  induction left generalizing i lines with
  | zero =>
    unfold linesFrom at h
    split at h
    · cases h
    · cases h
      simp
  | succ left ih =>
    unfold linesFrom at h
    split at h
    · by_cases hself : findNewline cps i = i
      · rw [if_pos hself] at h
        obtain ⟨rest, hrest, rfl⟩ := map_eq_some_iff.mp h
        rw [map_cons, forall_mem_cons]
        refine ⟨by simp, ?_⟩
        intro r hr hvalid
        have hle := ih hrest r hr hvalid
        omega
      · rw [if_neg hself] at h
        cases hf : f (restOfLine cps i) with
        | none =>
          rw [hf] at h
          cases h
        | some result =>
          rw [hf] at h
          obtain ⟨rest, hrest, rfl⟩ := map_eq_some_iff.mp h
          rw [map_cons, forall_mem_cons]
          constructor
          · intro hvalid
            change (lineAt cps i result.1).1.isValid = true at hvalid
            change i ≤ (lineAt cps i result.1).1.first
            by_cases hwrap : i < result.1
            · rw [lineAt_range hwrap]
              exact Nat.le_refl i
            · rw [lineAt_invalid hwrap] at hvalid
              cases hvalid
          · intro r hr hvalid
            have hle := ih hrest r hr hvalid
            have hlt := @lt_lineAt cps i result.1
            omega
    · cases h
      simp

theorem losslessFrom_end {i : Nat} (h : cps.length ≤ i) : LosslessFrom cps f i := by
  exact ⟨[], linesFrom_end h, covers_nil h⟩

theorem losslessFrom_newline {i : Nat} (h : i < cps.length) (hnewline : cps[i] = newline) :
    LosslessFrom cps f i ↔ LosslessFrom cps f (i + 1) := by
  have hcovers : ∀ {lines : List (WrappedLine K)},
      linesFrom cps f cps.length (i + 1) = some lines →
      (Covers cps i (.invalid :: lines.map WrappedLine.range) ↔
        Covers cps (i + 1) (lines.map WrappedLine.range)) := by
    intro lines hrest
    refine @covers_cons cps i i (i + 1) _ _ ?_ h.le (Nat.le_succ i) (le_refl _) ?_ ?_
      (first_of_linesFrom hrest)
    · intro k
      constructor
      · intro hmem
        exact absurd hmem (not_mem_invalid k)
      · intro hlt
        omega
    · intro k hk hle hlt
      omega
    · intro k hk hle hlt
      obtain rfl : k = i := by omega
      exact hnewline
  unfold LosslessFrom
  rw [linesFrom_newline h hnewline]
  constructor
  · rintro ⟨lines, hsome, hcover⟩
    obtain ⟨rest, hrest, rfl⟩ := map_eq_some_iff.mp hsome
    exact ⟨rest, hrest, (hcovers hrest).mp hcover⟩
  · rintro ⟨rest, hrest, hcover⟩
    exact ⟨_, map_eq_some_iff.mpr ⟨rest, hrest, rfl⟩, (hcovers hrest).mpr hcover⟩

theorem losslessFrom_line (hlength : cps.length < 2 ^ 31) {i : Nat} (h : i < cps.length)
    (hnewline : cps[i] ≠ newline)
    (hwrap : ∀ wrapindex width, f (restOfLine cps i) = some (wrapindex, width) →
      wrapindex ≤ findNewline cps i) :
    LosslessFrom cps f i ↔ ∃ wrapindex width,
      f (restOfLine cps i) = some (wrapindex, width) ∧ i < wrapindex ∧
        LosslessFrom cps f (lineAt cps i wrapindex).2 := by
  have hend := findNewline_le h.le
  cases hf : f (restOfLine cps i) with
  | none =>
    constructor
    · rintro ⟨lines, hsome, -⟩
      rw [linesFrom_fault h hnewline hf] at hsome
      cases hsome
    · rintro ⟨wrapindex, width, hnone, -⟩
      cases hnone
  | some result =>
    obtain ⟨wrapindex, width⟩ := result
    have hle := hwrap wrapindex width hf
    have hnext := @lt_lineAt cps i wrapindex
    have hcovers : i < wrapindex → ∀ {lines : List (WrappedLine K)},
        linesFrom cps f cps.length (lineAt cps i wrapindex).2 = some lines →
        (Covers cps i ((lineAt cps i wrapindex).1 :: lines.map WrappedLine.range) ↔
          Covers cps (lineAt cps i wrapindex).2 (lines.map WrappedLine.range)) := by
      intro hwrapped lines hrest
      have hlater := first_of_linesFrom hrest
      rw [lineAt_range hwrapped]
      rw [lineAt_next hwrapped] at hlater ⊢
      refine covers_cons ?_ (by omega) (by split <;> omega) hwrapped.le ?_ ?_ hlater
      · intro k
        rw [mem_ofSize (by omega) (by omega)]
        omega
      · intro k hk hik hlt
        exact ne_newline_of_lt hik (by omega) hk
      · intro k hk hstop hlt
        split at hlt
        next hbreak =>
          obtain rfl : k = wrapindex := by omega
          exact (findNewline_eq_self_iff hk).mp ((findNewline_between hwrapped.le hle).trans hbreak)
        · omega
    unfold LosslessFrom
    rw [linesFrom_line h hnewline hf]
    constructor
    · rintro ⟨lines, hsome, hcover⟩
      obtain ⟨rest, hrest, rfl⟩ := map_eq_some_iff.mp hsome
      by_cases hwrapped : i < wrapindex
      · exact ⟨wrapindex, width, rfl, hwrapped, rest, hrest, (hcovers hwrapped hrest).mp hcover⟩
      · -- no range has the codepoint
        have hlater := first_of_linesFrom hrest
        exfalso
        obtain ⟨r, hr, hmem⟩ := (hcover.complete i h (le_refl _)).mpr hnewline
        rcases mem_cons.mp hr with rfl | hr
        · change (lineAt cps i wrapindex).1.Mem i at hmem
          rw [lineAt_invalid hwrapped] at hmem
          exact not_mem_invalid i hmem
        · have hfirst := hlater r hr (isValid_of_mem hmem)
          have hmemFirst := hmem.1
          omega
    · rintro ⟨wrapindex', width', hresult, hwrapped, rest, hrest, hcover⟩
      cases hresult
      exact ⟨_, map_eq_some_iff.mpr ⟨rest, hrest, rfl⟩, (hcovers hwrapped hrest).mpr hcover⟩

/-- What all turns from an index on have to do. -/
def AdvancesFrom (cps : List Nat) (f : Range → Option (Nat × K)) (i : Nat) : Prop :=
  ∀ j, Relation.ReflTransGen (Turn cps f) i j → ∀ h : j < cps.length, cps[j] ≠ newline →
    Advances cps f j

omit [Zero K] in
theorem Turn.lt {i k : Nat} (h : Turn cps f i k) : i < cps.length ∧ i < k := by
  cases h with
  | newline h => exact ⟨h, Nat.lt_succ_self i⟩
  | line h => exact ⟨h, lt_lineAt _⟩

omit [Zero K] in
/-- What is asked of an index and of all that turns lead to is asked of each turn. -/
theorem forall_turns_iff {P Q : Nat → Prop} (hstep : ∀ i, P i ↔ Q i ∧ ∀ k, Turn cps f i k → P k)
    (i : Nat) : P i ↔ ∀ j, Relation.ReflTransGen (Turn cps f) i j → Q j := by
  induction hmeasure : cps.length - i using Nat.strong_induction_on generalizing i with
  | _ n ih =>
    have hnext {k : Nat} (h : Turn cps f i k) : cps.length - k < n := by
      have hlt := h.lt
      omega
    rw [hstep]
    constructor
    · rintro ⟨hq, hall⟩ j hturns
      rcases cases_head hturns with rfl | ⟨k, hturn, hrest⟩
      · exact hq
      · exact (ih _ (hnext hturn) k rfl).mp (hall k hturn) j hrest
    · intro hall
      refine ⟨hall i .refl, fun k hturn => (ih _ (hnext hturn) k rfl).mpr fun j hturns => ?_⟩
      exact hall j (.head hturn hturns)

section

variable (hlength : cps.length < 2 ^ 31)
  (hwrap : ∀ i (h : i < cps.length), cps[i] ≠ newline → ∀ wrapindex width,
    f (restOfLine cps i) = some (wrapindex, width) → wrapindex ≤ findNewline cps i)
include hlength hwrap

theorem losslessFrom_iff (i : Nat) : LosslessFrom cps f i ↔ AdvancesFrom cps f i := by
  refine (forall_turns_iff (fun i => ?_) i)
  rcases Nat.lt_or_ge i cps.length with h | h
  · by_cases hnewline : cps[i] = newline
    · rw [losslessFrom_newline h hnewline]
      constructor
      · intro hrest
        refine ⟨fun _ hne => absurd hnewline hne, fun k hturn => ?_⟩
        cases hturn with
        | newline => exact hrest
        | line _ hne => exact absurd hnewline hne
      · rintro ⟨-, hall⟩
        exact hall _ (.newline h hnewline)
    · rw [losslessFrom_line hlength h hnewline (hwrap i h hnewline)]
      constructor
      · rintro ⟨wrapindex, width, hf, hlt, hrest⟩
        refine ⟨fun _ _ => ⟨wrapindex, width, hf, hlt⟩, fun k hturn => ?_⟩
        cases hturn with
        | newline _ hyes => exact absurd hyes hnewline
        | line _ _ hf' =>
          cases hf.symm.trans hf'
          exact hrest
      · rintro ⟨hq, hall⟩
        obtain ⟨wrapindex, width, hf, hlt⟩ := hq h hnewline
        exact ⟨wrapindex, width, hf, hlt, hall _ (.line h hnewline hf)⟩
  · refine iff_of_true (losslessFrom_end h) ⟨fun hlt => absurd hlt h.not_gt, fun k hturn => ?_⟩
    exact absurd hturn.lt.1 h.not_gt

/-- The lines are lossless where each line that is started is broken behind its start. -/
theorem lossless_iff :
    Lossless cps (getWrap cps f) ↔ ∀ i, LineStart cps f i → Advances cps f i := by
  rw [getWrap_eq]
  refine (losslessFrom_iff hlength hwrap 0).trans ?_
  constructor
  · rintro hall i ⟨hturns, hi, hne⟩
    exact hall i hturns hi hne
  · intro hall i hturns hi hne
    exact hall i ⟨hturns, hi, hne⟩

end

end

/-! ## Where a scan breaks -/

section

/-- The codepoint before, and the width, after an item. -/
def widenOver (s : Nat × K) (item : ScanItem K) : Nat × K :=
  (item.codepoint, if item.codepoint = carriageReturn then s.2 else item.widen s.1 s.2)

/-- The last codepoint of some items, and their width. -/
def scanWidth [Zero K] (items : List (ScanItem K)) : Nat × K := items.foldl widenOver (0, 0)

/-- An item that can be the first one of a word. -/
def ScanItem.isVisible (item : ScanItem K) : Bool :=
  item.codepoint ≠ carriageReturn && !isWhitespace item.codepoint

/-- The item takes the ones before it over the limit. -/
def TooWide [Zero K] [LinearOrder K] (measure : K → K) (wraplimit : K) (before : List (ScanItem K))
    (item : ScanItem K) : Prop :=
  item.isVisible = true ∧ wraplimit < measure (widenOver (scanWidth before) item).2

/-- The codepoint before, and the index of the last item that is right behind a space. -/
def wordOver (s : Nat × Option Nat) (item : ScanItem K) : Nat × Option Nat :=
  (item.codepoint, if item.isVisible = true ∧ isWhitespace s.1 = true then some item.index else s.2)

/-- The index of the first item of the last word behind a space. -/
def lastWord (items : List (ScanItem K)) : Option Nat := (items.foldl wordOver (0, none)).2

/-- The line is too wide with some item, and its last word up to there starts at the first
codepoint of the line. -/
def GoesBack [Zero K] [LinearOrder K] (measure : K → K) (first : Nat) (wraplimit : K)
    (items : List (ScanItem K)) : Prop :=
  ∃ before item after, items = before ++ item :: after ∧
    (∀ earlier other later, before = earlier ++ other :: later →
      ¬ TooWide measure wraplimit earlier other) ∧
    TooWide measure wraplimit before item ∧
    ∃ index, lastWord (before ++ [item]) = some index ∧ index ≤ first

/-- What the scan keeps after an item that is not too wide. -/
def WrapScan.pass (s : WrapScan K) (item : ScanItem K) : WrapScan K :=
  if item.codepoint = carriageReturn then { s with prev := item.codepoint }
  else
    let newwidth := item.widen s.prev s.w
    if isWhitespace item.codepoint then
      { s with
        widthbeforelastspace := if isWhitespace s.prev then s.widthbeforelastspace else s.w
        w := newwidth
        prev := item.codepoint }
    else
      { s with
        outwidth := newwidth
        w := newwidth
        firstindexafterspace :=
          if isWhitespace s.prev then some item.index else s.firstindexafterspace
        prev := item.codepoint }

variable [Zero K]

/-- What the scan has kept after some items. -/
def WrapScan.after (items : List (ScanItem K)) : WrapScan K :=
  items.foldl WrapScan.pass (WrapScan.start 0)

theorem WrapScan.after_concat (items : List (ScanItem K)) (item : ScanItem K) :
    WrapScan.after (items ++ [item]) = (WrapScan.after items).pass item := by
  unfold WrapScan.after
  rw [foldl_append]
  rfl

theorem scanWidth_concat (items : List (ScanItem K)) (item : ScanItem K) :
    scanWidth (items ++ [item]) = widenOver (scanWidth items) item := by
  unfold scanWidth
  rw [foldl_append]
  rfl

theorem lastWord_concat (items : List (ScanItem K)) (item : ScanItem K) :
    lastWord (items ++ [item]) =
      if item.isVisible = true ∧ isWhitespace (scanWidth items).1 = true then some item.index
      else lastWord items := by
  have hprev : (items.foldl wordOver (0, none)).1 = (scanWidth items).1 := by
    induction items using reverseRecOn with
    | nil => rfl
    | append_singleton items item _ =>
      unfold scanWidth
      rw [foldl_append, foldl_append]
      rfl
  unfold lastWord
  rw [foldl_append, ← hprev]
  rfl

theorem WrapScan.after_spec (items : List (ScanItem K)) :
    ((WrapScan.after items).prev, (WrapScan.after items).w) = scanWidth items ∧
      (WrapScan.after items).firstindexafterspace = lastWord items := by
  induction items using reverseRecOn with
  | nil => exact ⟨rfl, rfl⟩
  | append_singleton items item ih =>
    obtain ⟨hwidth, hword⟩ := ih
    rw [after_concat, scanWidth_concat, lastWord_concat, ← hwidth, ← hword]
    unfold WrapScan.pass widenOver ScanItem.isVisible
    by_cases hcr : item.codepoint = carriageReturn
    · simp [hcr]
    · by_cases hspace : isWhitespace item.codepoint = true
      all_goals simp [hcr, hspace]

variable [LinearOrder K] {measure : K → K} {range : Range} {wraplimit : K}

/-- Where the scan breaks at an item that is too wide. -/
def breakAt (measure : K → K) (range : Range) (s : WrapScan K) (item : ScanItem K) : Nat × K :=
  match (if isWhitespace s.prev then some item.index else s.firstindexafterspace) with
  | some index => (index, measure s.widthbeforelastspace)
  | none =>
    (if range.first < item.index then item.index else range.first + 1, measure s.outwidth)

theorem scanLoop_of_tooWide {before items : List (ScanItem K)} {item : ScanItem K}
    (h : TooWide measure wraplimit before item) :
    scanLoop measure range wraplimit (item :: items) (WrapScan.after before) =
      breakAt measure range (WrapScan.after before) item := by
  obtain ⟨hwidth, -⟩ := after_spec before
  obtain ⟨hvisible, hwide⟩ := h
  unfold ScanItem.isVisible at hvisible
  rw [Bool.and_eq_true, decide_eq_true_iff, Bool.not_eq_true'] at hvisible
  rw [← hwidth] at hwide
  unfold widenOver at hwide
  rw [if_neg hvisible.1] at hwide
  unfold scanLoop
  rw [if_neg hvisible.1, if_neg (by simp [hvisible.2]), if_pos hwide]
  rfl

theorem scanLoop_of_not_tooWide {before items : List (ScanItem K)} {item : ScanItem K}
    (h : ¬ TooWide measure wraplimit before item) :
    scanLoop measure range wraplimit (item :: items) (WrapScan.after before) =
      scanLoop measure range wraplimit items (WrapScan.after (before ++ [item])) := by
  obtain ⟨hwidth, -⟩ := after_spec before
  rw [after_concat]
  conv_lhs => unfold scanLoop
  unfold WrapScan.pass
  by_cases hcr : item.codepoint = carriageReturn
  · rw [if_pos hcr, if_pos hcr]
  rw [if_neg hcr, if_neg hcr]
  by_cases hspace : isWhitespace item.codepoint = true
  · rw [if_pos hspace, if_pos hspace]
  · rw [if_neg hspace, if_neg hspace, if_neg]
    intro hwide
    refine h ⟨?_, ?_⟩
    · unfold ScanItem.isVisible
      simp [hcr, hspace]
    · rw [← hwidth]
      unfold widenOver
      rwa [if_neg hcr]

/-- The scan from some items on that all fit: it breaks at one that is too wide, or at the end. -/
theorem scanLoop_cases (before items : List (ScanItem K)) :
    (∃ between item later, items = between ++ item :: later ∧
      (∀ earlier other rest, between = earlier ++ other :: rest →
        ¬ TooWide measure wraplimit (before ++ earlier) other) ∧
      TooWide measure wraplimit (before ++ between) item ∧
      scanLoop measure range wraplimit items (WrapScan.after before) =
        breakAt measure range (WrapScan.after (before ++ between)) item) ∨
    ((∀ earlier other rest, items = earlier ++ other :: rest →
        ¬ TooWide measure wraplimit (before ++ earlier) other) ∧
      scanLoop measure range wraplimit items (WrapScan.after before) =
        (range.last + 1, measure (WrapScan.after (before ++ items)).outwidth)) := by
  induction items generalizing before with
  | nil =>
    right
    constructor
    · intro earlier other rest h
      exact absurd h (by simp)
    · rw [append_nil]
      rfl
  | cons item items ih =>
    by_cases hwide : TooWide measure wraplimit before item
    · left
      refine ⟨[], item, items, rfl, ?_, ?_, ?_⟩
      · intro earlier other rest h
        exact absurd h (by simp)
      · rwa [append_nil]
      · rw [append_nil]
        exact scanLoop_of_tooWide hwide
    · have hhead : ∀ {earlier : List (ScanItem K)} {other : ScanItem K} {items' rest},
          (∀ earlier other rest, items' = earlier ++ other :: rest →
            ¬ TooWide measure wraplimit (before ++ [item] ++ earlier) other) →
          item :: items' = earlier ++ other :: rest →
          ¬ TooWide measure wraplimit (before ++ earlier) other := by
        intro earlier other items' rest hfits h
        cases earlier with
        | nil =>
          rw [nil_append, List.cons.injEq] at h
          rw [append_nil, ← h.1]
          exact hwide
        | cons head earlier =>
          rw [cons_append, List.cons.injEq] at h
          have hfit := hfits earlier other rest h.2
          rwa [append_assoc, singleton_append, h.1] at hfit
      rw [scanLoop_of_not_tooWide hwide]
      rcases ih (before ++ [item]) with ⟨between, wide, later, rfl, hfits, hwide', hscan⟩ |
        ⟨hfits, hscan⟩
      · left
        refine ⟨item :: between, wide, later, rfl, fun _ _ _ => hhead hfits, ?_, ?_⟩
        · rwa [append_assoc, singleton_append] at hwide'
        · rwa [append_assoc, singleton_append] at hscan
      · right
        refine ⟨fun _ _ _ => hhead hfits, ?_⟩
        rwa [append_assoc, singleton_append] at hscan

theorem scanLoop_passed {before : List (ScanItem K)}
    (hfits : ∀ earlier other later, before = earlier ++ other :: later →
      ¬ TooWide measure wraplimit earlier other) (items : List (ScanItem K)) :
    scanLoop measure range wraplimit (before ++ items) (WrapScan.start 0) =
      scanLoop measure range wraplimit items (WrapScan.after before) := by
  induction before using reverseRecOn generalizing items with
  | nil => rfl
  | append_singleton before item ih =>
    rw [append_assoc, singleton_append, ih]
    · exact scanLoop_of_not_tooWide (hfits before item [] rfl)
    · rintro earlier other later rfl
      exact hfits earlier other (later ++ [item]) (by simp)

omit [LinearOrder K] in
theorem breakAt_index {before : List (ScanItem K)} {item : ScanItem K}
    (h : item.isVisible = true) :
    (breakAt measure range (WrapScan.after before) item).1 =
      match lastWord (before ++ [item]) with
      | some index => index
      | none => if range.first < item.index then item.index else range.first + 1 := by
  obtain ⟨hwidth, hword⟩ := after_spec before
  have hlast : lastWord (before ++ [item]) =
      if isWhitespace (WrapScan.after before).prev then some item.index
      else (WrapScan.after before).firstindexafterspace := by
    rw [lastWord_concat, ← hwidth, ← hword, h]
    simp only [true_and]
  rw [hlast]
  unfold breakAt
  generalize (if isWhitespace (WrapScan.after before).prev then some item.index
    else (WrapScan.after before).firstindexafterspace) = last
  cases last <;> rfl

theorem scanLoop_index_le_iff (hrange : range.first ≤ range.last) (items : List (ScanItem K)) :
    (scanLoop measure range wraplimit items (WrapScan.start 0)).1 ≤ range.first ↔
      GoesBack measure range.first wraplimit items := by
  constructor
  · intro hle
    rcases @scanLoop_cases K _ _ measure range wraplimit [] items with
      ⟨before, item, after, rfl, hfits, hwide, hscan⟩ | ⟨-, hscan⟩
    · rw [nil_append] at hwide hscan
      refine ⟨before, item, after, rfl, ?_, hwide, ?_⟩
      · intro earlier other later heq
        exact hfits earlier other later heq
      · change scanLoop measure range wraplimit _ (.start 0) = _ at hscan
        rw [hscan, breakAt_index hwide.1] at hle
        cases hlast : lastWord (before ++ [item]) with
        | some index =>
          rw [hlast] at hle
          exact ⟨index, rfl, hle⟩
        | none =>
          rw [hlast] at hle
          dsimp only at hle
          split at hle
          · omega
          · exact absurd hle (Nat.not_succ_le_self _)
    · change scanLoop measure range wraplimit _ (.start 0) = _ at hscan
      rw [hscan] at hle
      dsimp only at hle
      omega
  · rintro ⟨before, item, after, rfl, hfits, hwide, index, hlast, hle⟩
    rw [scanLoop_passed hfits, scanLoop_of_tooWide hwide, breakAt_index hwide.1, hlast]
    exact hle

omit [LinearOrder K] in
theorem lastWord_mem {items : List (ScanItem K)} {index : Nat}
    (h : lastWord items = some index) : ∃ item ∈ items, item.index = index := by
  induction items using reverseRecOn with
  | nil => cases h
  | append_singleton items item ih =>
    rw [lastWord_concat] at h
    split at h
    · cases h
      exact ⟨item, by simp, rfl⟩
    · obtain ⟨other, hother, heq⟩ := ih h
      exact ⟨other, by simp [hother], heq⟩

theorem scanLoop_index_le_last (hrange : range.first ≤ range.last) {items : List (ScanItem K)}
    (hitems : ∀ item ∈ items, range.Mem item.index) :
    (scanLoop measure range wraplimit items (WrapScan.start 0)).1 ≤ range.last + 1 := by
  rcases @scanLoop_cases K _ _ measure range wraplimit [] items with
    ⟨before, item, after, rfl, -, hwide, hscan⟩ | ⟨-, hscan⟩
  · change scanLoop measure range wraplimit _ (.start 0) = _ at hscan
    rw [hscan, nil_append, breakAt_index (by rw [nil_append] at hwide; exact hwide.1)]
    cases hlast : lastWord (before ++ [item]) with
    | some index =>
      obtain ⟨other, hother, rfl⟩ := lastWord_mem hlast
      have hmem := hitems other (by
        rw [mem_append, mem_singleton] at hother
        rw [mem_append, mem_cons]
        tauto)
      exact Nat.le_succ_of_le hmem.2
    | none =>
      have hmem := (hitems item (by simp)).2
      dsimp only
      split
      · omega
      · exact Nat.succ_le_succ hrange
  · change scanLoop measure range wraplimit _ (.start 0) = _ at hscan
    rw [hscan]

end

/-! ## The shapers -/

section

variable [Zero K]

theorem lastWord_behind {items : List (ScanItem K)} {index : Nat}
    (h : lastWord items = some index) :
    ∃ before space item after, items = before ++ space :: item :: after ∧ item.index = index ∧
      isWhitespace space.codepoint = true ∧ item.isVisible = true := by
  induction items using reverseRecOn with
  | nil => cases h
  | append_singleton items item ih =>
    rw [lastWord_concat] at h
    split at h
    · rename_i hspace
      cases h
      cases items using reverseRecOn with
      | nil => exact absurd (show isWhitespace 0 = true from hspace.2) (by decide)
      | append_singleton items space =>
        rw [scanWidth_concat] at hspace
        exact ⟨items, space, item, [], by simp, rfl, hspace.2, hspace.1⟩
    · obtain ⟨before, space, word, after, rfl, heq⟩ := ih h
      exact ⟨before, space, word, after ++ [item], by simp, heq⟩

end

theorem mem_codepointsOf {cps : List Nat} {range : Range} (hrange : range.first ≤ range.last)
    {item : Nat × Nat} (h : item ∈ codepointsOf cps range) : range.Mem item.2 := by
  unfold codepointsOf at h
  obtain ⟨k, hk, rfl⟩ := mem_iff_getElem.mp h
  rw [length_take] at hk
  rw [getElem_take, getElem_drop, getElem_zipIdx]
  unfold getSize at hk
  constructor
  all_goals
    dsimp only
    omega

theorem codepointsOf_sorted (cps : List Nat) (range : Range) :
    (codepointsOf cps range).Pairwise fun item item' => item.2 < item'.2 := by
  refine .sublist ((take_sublist _ _).trans (drop_sublist _ _)) ?_
  rw [pairwise_iff_getElem]
  intro i j hi hj hij
  rw [getElem_zipIdx, getElem_zipIdx]
  dsimp only
  omega

theorem restOfLine_ends {cps : List Nat} (hlength : cps.length < 2 ^ 31) {i : Nat}
    (h : i < cps.length) (hnewline : cps[i] ≠ newline) :
    (restOfLine cps i).first = i ∧ (restOfLine cps i).last + 1 = findNewline cps i ∧
      i < findNewline cps i := by
  have hself : findNewline cps i ≠ i := fun heq => hnewline ((findNewline_eq_self_iff h).mp heq)
  have hle := @le_findNewline cps i
  have hend := findNewline_le h.le
  have hlast := @ofSize_last i (findNewline cps i - i) (by omega) (by omega)
  refine ⟨rfl, ?_, by omega⟩
  unfold restOfLine
  omega

theorem validOr_restOfLine {cps : List Nat} (hlength : cps.length < 2 ^ 31) {i : Nat}
    (h : i < cps.length) (hnewline : cps[i] ≠ newline) :
    validOr (restOfLine cps i) cps.length = restOfLine cps i := by
  obtain ⟨hfirst, hlast, hlt⟩ := restOfLine_ends hlength h hnewline
  unfold validOr
  rw [if_pos]
  rw [isValid_iff]
  omega

namespace GenericShaper

variable {κ : Type} [Zero K] [Add K] [LinearOrder K] (shaper : GenericShaper K)
  (codepoints : ColoredCodepoints κ) (wraplimit : K)

theorem not_goesBack {range : Range} (hrange : range.first ≤ range.last) :
    ¬ GoesBack id range.first wraplimit
      ((codepointsOf codepoints.cps range).map shaper.scanItem) := by
  rintro ⟨before, item, after, hitems, -, -, index, hlast, hle⟩
  obtain ⟨l, space, word, r, hsplit, rfl, -, -⟩ := lastWord_behind hlast
  have hall : (codepointsOf codepoints.cps range).map shaper.scanItem =
      l ++ space :: word :: (r ++ after) := by
    rw [hitems, ← singleton_append, ← append_assoc, hsplit]
    simp
  have hsorted : ((codepointsOf codepoints.cps range).map shaper.scanItem).Pairwise
      fun item item' => item.index < item'.index :=
    pairwise_map.mpr (codepointsOf_sorted codepoints.cps range)
  rw [hall, pairwise_append] at hsorted
  have hlt := (pairwise_cons.mp hsorted.2.1).1 word (by simp)
  have hmem : space ∈ (codepointsOf codepoints.cps range).map shaper.scanItem := by
    rw [hall]
    simp
  obtain ⟨pair, hpair, rfl⟩ := mem_map.mp hmem
  have hfirst := (mem_codepointsOf hrange hpair).1
  change pair.2 < word.index at hlt
  omega

theorem getWrap_lossless (hlength : codepoints.cps.length < 2 ^ 31) :
    Lossless codepoints.cps (getWrap codepoints.cps fun range =>
      some (shaper.computeWordWrapIndex codepoints range wraplimit)) := by
  have hindex : ∀ i (h : i < codepoints.cps.length), codepoints.cps[i] ≠ newline →
      i < (shaper.computeWordWrapIndex codepoints (restOfLine codepoints.cps i) wraplimit).1 ∧
      (shaper.computeWordWrapIndex codepoints (restOfLine codepoints.cps i) wraplimit).1 ≤
        findNewline codepoints.cps i := by
    intro i h hnewline
    obtain ⟨hfirst, hlast, hlt⟩ := restOfLine_ends hlength h hnewline
    have hrange : (restOfLine codepoints.cps i).first ≤ (restOfLine codepoints.cps i).last := by
      omega
    unfold computeWordWrapIndex
    dsimp only
    rw [validOr_restOfLine hlength h hnewline]
    constructor
    · by_contra hle
      refine shaper.not_goesBack codepoints wraplimit hrange ?_
      rw [← scanLoop_index_le_iff hrange, hfirst]
      exact not_lt.mp hle
    · rw [← hlast]
      refine scanLoop_index_le_last hrange ?_
      intro item hitem
      obtain ⟨pair, hpair, rfl⟩ := mem_map.mp hitem
      exact mem_codepointsOf hrange hpair
  rw [lossless_iff hlength]
  · rintro i ⟨-, h, hnewline⟩
    exact ⟨_, _, rfl, (hindex i h hnewline).1⟩
  · intro i h hnewline wrapindex width hf
    have hle := (hindex i h hnewline).2
    rw [Option.some.injEq] at hf
    rwa [hf] at hle

end GenericShaper

namespace HarfbuzzShaper

variable {κ : Type} (shaper : HarfbuzzShaper K)

/-- HarfBuzz makes clusters of the codepoints that it is given. -/
def ClustersInside : Prop :=
  ∀ rasti cps ranges, ∀ glyph ∈ (shaper.shape rasti cps ranges).glyphs,
    ∃ r ∈ ranges, r.Mem glyph.cluster

/-- All glyphs of a buffer are of a range. -/
def GlyphsOf (range : Range) (glyphs : List HbGlyph) : Prop :=
  ∀ glyph ∈ glyphs, range.Mem glyph.cluster

/-- All ranges are parts of a range. -/
def PartsOf (range : Range) (ranges : List Range) : Prop :=
  ∀ r ∈ ranges, range.first ≤ r.first ∧ r.last ≤ range.last

variable {shaper} {cps : List Nat} {range : Range}

theorem PartsOf.concat {ranges : List Range} (h : PartsOf range ranges) {r : Range}
    (hfirst : range.first ≤ r.first) (hlast : r.last ≤ range.last) :
    PartsOf range (ranges ++ [r]) := by
  intro r' hr'
  rcases mem_append.mp hr' with hr' | hr'
  · exact h r' hr'
  · rw [mem_singleton.mp hr']
    exact ⟨hfirst, hlast⟩

theorem placeGlyph_parts (hlast : range.last < 2 ^ 31) {direction : HbDirection}
    {rasti i : Nat} {before : Option HbGlyph} {info : HbGlyph} {s : Fallbacks}
    (hinfo : range.Mem info.cluster) (h : PartsOf range s.fallbackranges) :
    PartsOf range (shaper.placeGlyph cps direction rasti i before info s).fallbackranges := by
  have hone := @ofSize_last info.cluster 1 (by omega)
    (by have hle := hinfo.2; omega)
  have hnew : PartsOf range (s.fallbackranges ++ [ofSize info.cluster 1]) := by
    refine h.concat hinfo.1 ?_
    have hle := hinfo.2
    omega
  unfold placeGlyph
  dsimp only
  split
  · exact h
  split
  · exact h
  cases hback : s.fallbackranges.getLast? with
  | none => exact hnew
  | some back =>
    cases before with
    | none => exact hnew
    | some prev =>
      obtain ⟨hfirst, hend⟩ := h back (mem_of_getLast? hback)
      have hkept : PartsOf range s.fallbackranges.dropLast := by
        intro r hr
        exact h r (mem_of_mem_dropLast hr)
      dsimp only
      by_cases hgap : (if direction = .rtl then back.first else back.last) ≠ prev.cluster
      · rw [if_pos hgap]
        exact hnew
      · rw [if_neg hgap]
        exact @PartsOf.concat range _ hkept (back.encapsulate info.cluster)
          (le_min hfirst hinfo.1) (max_le hend hinfo.2)

theorem glyphLoop_parts (hlast : range.last < 2 ^ 31) {direction : HbDirection} {rasti : Nat}
    {glyphs : List HbGlyph} {i : Nat} {before : Option HbGlyph} {s : Fallbacks}
    (hglyphs : GlyphsOf range glyphs) (h : PartsOf range s.fallbackranges) :
    PartsOf range (shaper.glyphLoop cps direction rasti glyphs i before s).fallbackranges := by
  induction glyphs generalizing i before s with
  | nil => exact h
  | cons info glyphs ih =>
    refine ih (fun glyph hglyph => hglyphs glyph (mem_cons_of_mem _ hglyph)) ?_
    exact placeGlyph_parts hlast (hglyphs info mem_cons_self) h

theorem rasterizerLoop_glyphs (hclusters : shaper.ClustersInside) (hlast : range.last < 2 ^ 31)
    {left rasti : Nat} {s : Fallbacks} {buffers : List HbBuffer}
    (hs : PartsOf range s.fallbackranges) (hbuffers : ∀ b ∈ buffers, GlyphsOf range b.glyphs) :
    ∀ b ∈ (shaper.rasterizerLoop cps left rasti s buffers).2, GlyphsOf range b.glyphs := by
  induction left generalizing rasti s buffers with
  | zero => exact hbuffers
  | succ left ih =>
    have hshaped : GlyphsOf range (shaper.shape rasti cps s.fallbackranges).glyphs := by
      intro glyph hglyph
      obtain ⟨r, hr, hmem⟩ := hclusters _ _ _ glyph hglyph
      obtain ⟨hfirst, hend⟩ := hs r hr
      exact ⟨hfirst.trans hmem.1, hmem.2.trans hend⟩
    refine ih (glyphLoop_parts hlast hshaped (by intro r hr; cases hr)) ?_
    intro b hb
    rcases mem_append.mp hb with hb | hb
    · exact hbuffers b hb
    · rw [mem_singleton.mp hb]
      exact hshaped

theorem mem_of_mapM {α β : Type} {g : α → Option β} {l : List α} {l' : List β}
    (h : l.mapM g = some l') : ∀ b ∈ l', ∃ a ∈ l, g a = some b := by
  induction l generalizing l' with
  | nil =>
    cases h
    simp
  | cons a l ih =>
    rw [mapM_cons] at h
    cases ha : g a with
    | none => simp [ha] at h
    | some b =>
      cases hl : l.mapM g with
      | none => simp [ha, hl] at h
      | some bs =>
        simp only [ha, hl, Option.bind_eq_bind, Option.bind_some, Option.pure_def,
          Option.some.injEq] at h
        subst h
        rw [forall_mem_cons]
        refine ⟨⟨a, mem_cons_self, ha⟩, ?_⟩
        intro b' hb'
        obtain ⟨a', ha', hga'⟩ := ih hl b' hb'
        exact ⟨a', mem_cons_of_mem _ ha', hga'⟩

theorem computeBufferRanges_glyphs (hclusters : shaper.ClustersInside)
    (hlast : range.last < 2 ^ 31) {runs : List HbRun}
    (h : shaper.computeBufferRanges cps range = some runs) :
    ∀ run ∈ runs, GlyphsOf range run.glyphs := by
  unfold computeBufferRanges at h
  split at h
  · cases h
    simp
  split at h
  · dsimp only at h
    split at h
    · cases h
    · cases h
      intro run hrun glyph hglyph
      rw [mem_singleton.mp hrun] at hglyph
      obtain ⟨r, hr, hmem⟩ := hclusters _ _ _ glyph hglyph
      rwa [mem_singleton.mp hr] at hmem
  · have hwhole : PartsOf range [range] := by
      intro r hr
      rw [mem_singleton.mp hr]
      exact ⟨le_refl _, le_refl _⟩
    have hbuffers := @rasterizerLoop_glyphs K shaper cps range hclusters hlast
      (shaper.fallbacks + 1) 0 ⟨[], [range]⟩ [] hwhole (by simp)
    intro run hrun glyph hglyph
    obtain ⟨r, -, hr⟩ := mem_of_mapM h run hrun
    unfold resolve at hr
    cases hbuffer : (shaper.rasterizerLoop cps (shaper.fallbacks + 1) 0 ⟨[], [range]⟩ []).2[r.index]?
      with
    | none =>
      rw [hbuffer] at hr
      cases hr
    | some buffer =>
      rw [hbuffer] at hr
      dsimp only at hr
      split at hr
      · cases hr
        exact hbuffers buffer (mem_of_getElem? hbuffer) glyph
          (mem_of_mem_drop (mem_of_mem_take hglyph))
      · cases hr

section

variable [Add K] [Mul K]

/-- What the scan of a line reads. -/
def lineItems (shaper : HarfbuzzShaper K) (cps : List Nat) (runs : List HbRun) :
    List (ScanItem K) :=
  runs.flatMap fun run => run.glyphs.map (shaper.scanItem cps run)

/-- The glyphs of a line are known, and its scan does not go back to its start. -/
def LineFine [Zero K] [LinearOrder K] (shaper : HarfbuzzShaper K) (cps : List Nat)
    (wraplimit : K) (i : Nat) : Prop :=
  ∃ runs, shaper.computeBufferRanges cps (restOfLine cps i) = some runs ∧
    ¬ GoesBack shaper.snapToPixel i wraplimit (shaper.lineItems cps runs)

theorem lineItems_mem {runs : List HbRun} (h : ∀ run ∈ runs, GlyphsOf range run.glyphs) :
    ∀ item ∈ shaper.lineItems cps runs, range.Mem item.index := by
  intro item hitem
  obtain ⟨run, hrun, hitem⟩ := mem_flatMap.mp hitem
  obtain ⟨glyph, hglyph, rfl⟩ := mem_map.mp hitem
  exact h run hrun glyph hglyph

end

variable [Zero K] [Add K] [Mul K] [LinearOrder K]

theorem getWrap_lossless_shaped_iff (hclusters : shaper.ClustersInside)
    (codepoints : ColoredCodepoints κ) (hlength : codepoints.cps.length < 2 ^ 31)
    (wraplimit : K) :
    Lossless codepoints.cps (getWrap codepoints.cps fun range =>
        shaper.computeWordWrapIndex codepoints range wraplimit) ↔
      ∀ i, LineStart codepoints.cps
          (fun range => shaper.computeWordWrapIndex codepoints range wraplimit) i →
        shaper.LineFine codepoints.cps wraplimit i := by
  have hscan : ∀ i (h : i < codepoints.cps.length), codepoints.cps[i] ≠ newline →
      shaper.computeWordWrapIndex codepoints (restOfLine codepoints.cps i) wraplimit =
        (shaper.computeBufferRanges codepoints.cps (restOfLine codepoints.cps i)).map fun runs =>
          scanLoop shaper.snapToPixel (restOfLine codepoints.cps i) wraplimit
            (shaper.lineItems codepoints.cps runs) (.start 0) := by
    intro i h hnewline
    unfold computeWordWrapIndex
    dsimp only
    rw [validOr_restOfLine hlength h hnewline]
    cases shaper.computeBufferRanges codepoints.cps (restOfLine codepoints.cps i) <;> rfl
  have hends : ∀ i (h : i < codepoints.cps.length), codepoints.cps[i] ≠ newline →
      (restOfLine codepoints.cps i).first ≤ (restOfLine codepoints.cps i).last ∧
        (restOfLine codepoints.cps i).last < 2 ^ 31 := by
    intro i h hnewline
    obtain ⟨hfirst, hlast, hlt⟩ := restOfLine_ends hlength h hnewline
    have hle := findNewline_le h.le
    omega
  rw [lossless_iff hlength]
  · refine forall_congr' fun i => ?_
    constructor
    · rintro hadvances ⟨hturns, h, hnewline⟩
      obtain ⟨wrapindex, width, hf, hlt⟩ := hadvances ⟨hturns, h, hnewline⟩
      obtain ⟨runs, hruns, hscanned⟩ :=
        map_eq_some_iff.mp ((hscan i h hnewline).symm.trans hf)
      refine ⟨runs, hruns, ?_⟩
      intro hback
      have hle := (scanLoop_index_le_iff (hends i h hnewline).1 _).mpr hback
      rw [hscanned] at hle
      change wrapindex ≤ i at hle
      omega
    · rintro hfine ⟨hturns, h, hnewline⟩
      obtain ⟨runs, hruns, hforth⟩ := hfine ⟨hturns, h, hnewline⟩
      refine ⟨_, _, (hscan i h hnewline).trans (by rw [hruns]; rfl), ?_⟩
      · by_contra hle
        refine hforth ((scanLoop_index_le_iff (hends i h hnewline).1 _).mp ?_)
        exact not_lt.mp hle
  · intro i h hnewline wrapindex width hf
    obtain ⟨runs, hruns, hscanned⟩ :=
      map_eq_some_iff.mp ((hscan i h hnewline).symm.trans hf)
    obtain ⟨hrange, hlast⟩ := hends i h hnewline
    have hitems := @lineItems_mem K shaper codepoints.cps (restOfLine codepoints.cps i) _ _ runs
      (computeBufferRanges_glyphs hclusters hlast hruns)
    have hle := @scanLoop_index_le_last K _ _ shaper.snapToPixel _ wraplimit hrange _ hitems
    rw [hscanned] at hle
    obtain ⟨-, hend, -⟩ := restOfLine_ends hlength h hnewline
    omega

end HarfbuzzShaper

/-- With `GenericShaper` no codepoint is lost; with `HarfbuzzShaper` none is where no scan of a
line goes back to the line's start. -/
theorem getWrap_lossless_iff {κ : Type} [Zero K] [Add K] [Mul K] [LinearOrder K]
    (generic : GenericShaper K) {harfbuzz : HarfbuzzShaper K}
    (hclusters : harfbuzz.ClustersInside) {codepoints : ColoredCodepoints κ}
    (hlength : codepoints.cps.length < 2 ^ 31) (wraplimit : K) :
    Lossless codepoints.cps (getWrap codepoints.cps fun range =>
        some (generic.computeWordWrapIndex codepoints range wraplimit)) ∧
      (Lossless codepoints.cps (getWrap codepoints.cps fun range =>
          harfbuzz.computeWordWrapIndex codepoints range wraplimit) ↔
        ∀ i, LineStart codepoints.cps
            (fun range => harfbuzz.computeWordWrapIndex codepoints range wraplimit) i →
          harfbuzz.LineFine codepoints.cps wraplimit i) :=
  ⟨generic.getWrap_lossless codepoints wraplimit hlength,
    HarfbuzzShaper.getWrap_lossless_shaped_iff hclusters codepoints hlength wraplimit⟩

/-- Glyphs of ten pixels, from the left or from the right. -/
def tenPixels (reverse : Bool) : HarfbuzzShaper Int where
  floorf := id
  fraction _ := 0
  fallbacks := 0
  shape _ _ ranges :=
    let clusters := ranges.flatMap fun r => List.range' r.first (r.last + 1 - r.first)
    let glyphs := clusters.map fun cluster => ⟨1, cluster, 0, 0, 640, 0⟩
    if reverse then ⟨glyphs.reverse, .rtl⟩ else ⟨glyphs, .ltr⟩
  usingSpacesForTab := false
  spaceGlyphIndex := ⟨1, 0⟩
  tabSpacesAdvanceX := 0
  tabSpacesAdvanceY := 0
  combinedHeight := 10
  baseline := 0
  fixed26_6ToFloat v := v / 64
  dpiScaleInverse := 1
  snapToPixel := id

theorem tenPixels_clusters (reverse : Bool) : (tenPixels reverse).ClustersInside := by
  intro rasti cps ranges glyph hglyph
  have hmem : glyph ∈ (ranges.flatMap fun r =>
      range' r.first (r.last + 1 - r.first)).map fun cluster =>
        (⟨1, cluster, 0, 0, 640, 0⟩ : HbGlyph) := by
    cases reverse with
    | false => exact hglyph
    | true => exact mem_reverse.mp hglyph
  obtain ⟨cluster, hcluster, rfl⟩ := mem_map.mp hmem
  obtain ⟨r, hr, hrange⟩ := mem_flatMap.mp hcluster
  rw [mem_range'_1] at hrange
  exact ⟨r, hr, hrange.1, by dsimp only; omega⟩

/-- Codepoints of ten pixels. -/
def tenEach : GenericShaper Int where
  floorf := id
  fraction _ := 0
  getKerning _ _ := 0
  getGlyphAdvance _ := 10
  glyphIndex g := ⟨g, 0⟩
  combinedHeight := 10
  baseline := 0
  trueType := false

/-- Two words of a letter. -/
def twoLetters : ColoredCodepoints Unit := ⟨[0x5D0, 0x20, 0x5D1], []⟩

theorem getWrap_lossless_iff_twoLetters :
    Lossless twoLetters.cps (getWrap twoLetters.cps fun range =>
        some (tenEach.computeWordWrapIndex twoLetters range 25)) ∧
      (Lossless twoLetters.cps (getWrap twoLetters.cps fun range =>
          (tenPixels false).computeWordWrapIndex twoLetters range 25) ↔
        ∀ i, LineStart twoLetters.cps
            (fun range => (tenPixels false).computeWordWrapIndex twoLetters range 25) i →
          (tenPixels false).LineFine twoLetters.cps 25 i) :=
  getWrap_lossless_iff tenEach (tenPixels_clusters false) (by decide) 25

/-- From the right, the scan goes back to the letter that comes last. -/
theorem not_lossless_twoLetters :
    ¬ Lossless twoLetters.cps (getWrap twoLetters.cps fun range =>
      (tenPixels true).computeWordWrapIndex twoLetters range 25) := by
  rintro ⟨wrapped, hwrapped, hcover⟩
  have hlines : (getWrap twoLetters.cps fun range =>
      (tenPixels true).computeWordWrapIndex twoLetters range 25) =
        some [⟨.invalid, 10⟩, ⟨⟨1, 2⟩, 10⟩] := by decide
  cases hwrapped
  obtain ⟨r, hr, hmem⟩ := (hcover.complete 0 (by decide) (le_refl _)).mpr (by decide)
  rcases mem_cons.mp hr with rfl | hr
  · exact not_mem_invalid 0 hmem
  · rw [mem_singleton.mp hr] at hmem
    exact absurd hmem.1 (by decide)

end Lhatove.Font
