import Mathlib.Data.List.DropRight
import Lhatove.Font.WrapRanges

/-!
# Widths of wrapped lines

The widths that `getWrap` gives with `GenericShaper`, against those of the lines as texts of
their own.

- `WidthRight`: the width of a line without what trails, and not over the limit;
- `ScanRight`: what the text and the limit have to be like where a line starts;
- `getWrap_widths_iff`: when all widths are right.

Of the numbers, nothing but `x - 0 = x` is used.
-/

namespace Lhatove.Font

open Math (Vector2)
open GenericShaper List Range WrapScan
open Relation.ReflTransGen (cases_head)

variable {K : Type}

/-- Neither a space nor a tab, nor a carriage return. -/
def isVisible (g : Nat) : Bool := g ≠ carriageReturn && !isWhitespace g

/-- A line without the spaces, tabs and carriage returns at its end. -/
def trimText (text : List Nat) : List Nat := text.rdropWhile fun g => !isVisible g

/-- `trimText`, of what a scan reads -/
def trim (items : List (ScanItem K)) : List (ScanItem K) :=
  items.rdropWhile fun item => !item.isVisible

/-- The codepoint before, what has been seen, and what was before the last run of spaces. -/
def spacesOver (s : Nat × List (ScanItem K) × List (ScanItem K)) (item : ScanItem K) :
    Nat × List (ScanItem K) × List (ScanItem K) :=
  (item.codepoint, s.2.1 ++ [item],
    if isWhitespace item.codepoint = true ∧ isWhitespace s.1 = false then s.2.1 else s.2.2)

/-- What is before the last run of spaces and tabs; a carriage return parts two of them. -/
def beforeSpaces (items : List (ScanItem K)) : List (ScanItem K) :=
  (items.foldl spacesOver (0, [], [])).2.2

theorem trim_concat (items : List (ScanItem K)) (item : ScanItem K) :
    trim (items ++ [item]) = if item.isVisible = true then items ++ [item] else trim items := by
  unfold trim
  rw [rdropWhile_concat]
  cases item.isVisible <;> rfl

section

variable [Zero K]

theorem beforeSpaces_concat (items : List (ScanItem K)) (item : ScanItem K) :
    beforeSpaces (items ++ [item]) =
      if isWhitespace item.codepoint = true ∧ isWhitespace (scanWidth items).1 = false then items
      else beforeSpaces items := by
  have hseen : (items.foldl spacesOver (0, [], [])).1 = (scanWidth items).1 ∧
      (items.foldl spacesOver (0, [], [])).2.1 = items := by
    induction items using reverseRecOn with
    | nil => exact ⟨rfl, rfl⟩
    | append_singleton items item ih =>
      unfold scanWidth
      rw [foldl_append, foldl_append]
      refine ⟨rfl, ?_⟩
      change (items.foldl spacesOver (0, [], [])).2.1 ++ [item] = items ++ [item]
      rw [ih.2]
  unfold beforeSpaces
  rw [foldl_append]
  change (if isWhitespace item.codepoint = true ∧
    isWhitespace (items.foldl spacesOver (0, [], [])).1 = false then
      (items.foldl spacesOver (0, [], [])).2.1 else (items.foldl spacesOver (0, [], [])).2.2) = _
  rw [hseen.1, hseen.2]

theorem WrapScan.after_widths (items : List (ScanItem K)) :
    (WrapScan.after items).outwidth = (scanWidth (trim items)).2 ∧
      (WrapScan.after items).widthbeforelastspace = (scanWidth (beforeSpaces items)).2 := by
  induction items using reverseRecOn with
  | nil => exact ⟨rfl, rfl⟩
  | append_singleton items item ih =>
    obtain ⟨hwidth, -⟩ := after_spec items
    obtain ⟨hout, hbefore⟩ := ih
    rw [after_concat, beforeSpaces_concat, trim_concat, ← hwidth]
    unfold pass
    by_cases hcr : item.codepoint = carriageReturn
    · have hspace : isWhitespace carriageReturn = false := by decide
      simp [hcr, hspace, ScanItem.isVisible, hout, hbefore]
    rw [if_neg hcr]
    split
    next hspace =>
      refine ⟨?_, ?_⟩
      · simp [ScanItem.isVisible, hspace, hout]
      · dsimp only
        cases hprev : isWhitespace (WrapScan.after items).prev
        · rw [if_neg (by simp), if_pos ⟨hspace, rfl⟩, ← hwidth]
        · rw [if_pos rfl, if_neg (by simp)]
          exact hbefore
    next hspace =>
      refine ⟨?_, ?_⟩
      · have hvisible : item.isVisible = true := by
          unfold ScanItem.isVisible
          simp [hcr, hspace]
        rw [if_pos hvisible, scanWidth_concat, ← hwidth]
        unfold widenOver
        rw [if_neg hcr]
      · simp [hspace, hbefore]

/-! ### Words -/

/-- No carriage return is right behind a space or a tab. -/
def NoReturnBehindSpace (items : List (ScanItem K)) : Prop :=
  ∀ l space cr r, items = l ++ space :: cr :: r → isWhitespace space.codepoint = true →
    cr.codepoint ≠ carriageReturn

/-- Items at the codepoints from an index on. -/
def IndexedFrom (first : Nat) (items : List (ScanItem K)) : Prop :=
  ∀ before item after, items = before ++ item :: after → item.index = first + before.length

/-! ## Drawn widths -/

/-- Every item of a line fits. -/
def AllFit [LinearOrder K] (wraplimit : K) (items : List (ScanItem K)) : Prop :=
  ∀ earlier other later, items = earlier ++ other :: later → ¬ TooWide id wraplimit earlier other

theorem AllFit.take [LinearOrder K] {wraplimit : K} {items : List (ScanItem K)}
    (h : AllFit wraplimit items) (n : Nat) : AllFit wraplimit (items.take n) := by
  intro earlier other later heq
  refine h earlier other (later ++ items.drop n) ?_
  conv_lhs => rw [← take_append_drop n items, heq]
  simp

theorem trim_le_of_fits [LinearOrder K] {wraplimit : K} {items : List (ScanItem K)}
    (h : AllFit wraplimit items) (hne : trim items ≠ []) :
    (scanWidth (trim items)).2 ≤ wraplimit := by
  obtain ⟨rest, hrest⟩ : trim items <+: items := rdropWhile_prefix _ _
  have hvisible : ((trim items).getLast hne).isVisible = true := by
    have hnot := rdropWhile_last_not (fun item : ScanItem K => !item.isVisible) items hne
    cases hcase : ((trim items).getLast hne).isVisible with
    | true => rfl
    | false => exact absurd (congrArg not hcase) hnot
  have hsplit := dropLast_concat_getLast hne
  have hfit := h (trim items).dropLast ((trim items).getLast hne) rest (by
    rw [← singleton_append, ← append_assoc, hsplit, hrest])
  rw [← hsplit, scanWidth_concat]
  by_contra hover
  exact hfit ⟨hvisible, not_le.mp hover⟩

end

namespace GenericShaper

variable {κ : Type} [Zero K] [Add K] [LinearOrder K] (shaper : GenericShaper K)

/-- `TextShaper::getWidth` -/
def getWidth [Sub K] (cps : List Nat) : K :=
  if cps = [] then 0
  else
    (shaper.computeGlyphPositions (⟨cps, []⟩ : ColoredCodepoints Unit) .invalid ⟨0, 0⟩ 0).width

theorem foldl_step (offset : Vector2 K) (items : List (Nat × Nat))
    (hline : ∀ item ∈ items, item.1 ≠ newline) (codepoints : ColoredCodepoints κ)
    (hcolors : codepoints.colors = []) (s : Layout κ K) (hs : s.colorToAdd = none) :
    let s' := items.foldl (shaper.step codepoints offset 0) s
    s'.colorToAdd = none ∧ s'.maxwidth = s.maxwidth ∧ (s'.prevglyph, s'.curpos.x) =
      (items.map shaper.scanItem).foldl widenOver (s.prevglyph, s.curpos.x) := by
  induction items generalizing s with
  | nil => exact ⟨hs, rfl, rfl⟩
  | cons item items ih =>
    have hmeet : s.meetColor codepoints item.2 = s := by
      unfold Layout.meetColor
      rw [hcolors]
      rfl
    have hflush : s.flushColor = s := by
      unfold Layout.flushColor
      rw [hs]
    have hnewline := hline item mem_cons_self
    have hstep : (shaper.step codepoints offset 0 s item).colorToAdd = none ∧
        (shaper.step codepoints offset 0 s item).maxwidth = s.maxwidth ∧
        ((shaper.step codepoints offset 0 s item).prevglyph,
          (shaper.step codepoints offset 0 s item).curpos.x) =
            widenOver (s.prevglyph, s.curpos.x) (shaper.scanItem item) := by
      unfold step
      dsimp only
      rw [hmeet, if_neg hnewline, hflush]
      change _ ∧ _ ∧ _ = (item.1, if item.1 = carriageReturn then s.curpos.x else _)
      by_cases hcr : item.1 = carriageReturn
      · rw [if_pos hcr, if_pos hcr]
        exact ⟨hs, rfl, rfl⟩
      · rw [if_neg hcr, if_neg hcr]
        unfold Layout.space
        rw [if_neg (by simp)]
        exact ⟨hs, rfl, rfl⟩
    obtain ⟨hadd, hmax, hplace⟩ := ih (fun other hother => hline other (mem_cons_of_mem _ hother))
      _ hstep.1
    refine ⟨hadd, hmax.trans hstep.2.1, ?_⟩
    rw [foldl_cons, hplace, map_cons, foldl_cons, hstep.2.2]

variable [Sub K]

theorem getWidth_eq (hsub : ∀ x : K, x - 0 = x) {cps : List Nat} (hlength : cps.length < 2 ^ 31)
    (hline : newline ∉ cps) :
    shaper.getWidth cps = max 0 (scanWidth (cps.zipIdx.map shaper.scanItem)).2 := by
  unfold getWidth
  by_cases hnil : cps = []
  · rw [if_pos hnil, hnil]
    exact (max_self 0).symm
  rw [if_neg hnil]
  have hpos := length_pos_of_ne_nil hnil
  have hwhole : codepointsOf cps (validOr .invalid cps.length) = cps.zipIdx := by
    have hlast := @ofSize_last 0 cps.length (by omega) (by omega)
    unfold validOr codepointsOf getSize
    change ((cps.zipIdx.drop 0).take ((ofSize 0 cps.length).last - 0 + 1)) = _
    rw [drop_zero, take_of_length_le]
    rw [length_zipIdx]
    omega
  unfold computeGlyphPositions
  dsimp only
  rw [hwhole]
  have hlines : ∀ item ∈ cps.zipIdx, item.1 ≠ newline := by
    rintro ⟨g, k⟩ hitem rfl
    exact hline (fst_mem_of_mem_zipIdx hitem)
  have hoffset : (if shaper.trueType = true then (⟨0, 0 + shaper.baseline⟩ : Vector2 K)
      else ⟨0, 0⟩).x = 0 := by
    split <;> rfl
  generalize (if shaper.trueType = true then (⟨0, 0 + shaper.baseline⟩ : Vector2 K)
    else ⟨0, 0⟩) = offset at hoffset
  obtain ⟨-, hmax, hplace⟩ := shaper.foldl_step offset cps.zipIdx hlines
    (⟨cps, []⟩ : ColoredCodepoints Unit) rfl
    (.start ⟨cps, []⟩ (validOr .invalid cps.length) offset 0 0) (by
      unfold Layout.start
      split <;> rfl)
  rw [hmax, hoffset, hsub]
  refine (congrArg (max 0) (congrArg Prod.snd hplace)).trans ?_
  change max 0 ((cps.zipIdx.map shaper.scanItem).foldl widenOver (0, offset.x)).2 = _
  rw [hoffset]
  rfl

end GenericShaper

theorem rdropWhile_map {α β : Type} (f : α → β) (p : β → Bool) (l : List α) :
    (l.map f).rdropWhile p = (l.rdropWhile fun a => p (f a)).map f := by
  induction l using reverseRecOn with
  | nil => rfl
  | append_singleton l a ih =>
    rw [map_append, map_singleton, rdropWhile_concat, rdropWhile_concat, ih]
    split
    · rfl
    · rw [map_append, map_singleton]

/-- The codepoints of a line. -/
def lineText (cps : List Nat) (range : Range) : List Nat :=
  (codepointsOf cps range).map Prod.fst

/-- The width of a line is the drawn width of what is left of it without trailing spaces, and
not over the limit, except for a single visible codepoint. -/
def WidthRight [Zero K] [Add K] [Sub K] [LinearOrder K] (shaper : GenericShaper K)
    (cps : List Nat) (wraplimit : K) (line : WrappedLine K) : Prop :=
  line.width = shaper.getWidth (trimText (lineText cps line.range)) ∧
    (line.width ≤ wraplimit ∨ ∃ g, lineText cps line.range = [g] ∧ isVisible g = true)

/-- The part of a line whose width is given is as wide as the line without what trails, where
this is not below 0; and the limit is not below it where it is nothing. -/
def LineRight [Zero K] [LinearOrder K] (wraplimit : K) (kept line : List (ScanItem K)) : Prop :=
  (scanWidth kept).2 = max 0 (scanWidth (trim line)).2 ∧
    ((scanWidth (trim line)).2 ≤ 0 → 0 ≤ wraplimit)

/-- What a text and a limit have to be like where a line starts at an index, for what is left of
the text up to a newline. -/
def ScanRight [Zero K] [LinearOrder K] (first : Nat) (wraplimit : K)
    (items : List (ScanItem K)) : Prop :=
  (AllFit wraplimit items → LineRight wraplimit (trim items) items) ∧
    ∀ before item after, items = before ++ item :: after → AllFit wraplimit before →
      TooWide id wraplimit before item →
      match lastWord (before ++ [item]) with
      | some index =>
        -- broken at the last word
        LineRight wraplimit (beforeSpaces before) (items.take (index - first))
      | none =>
        -- broken at a codepoint, or behind the only one
        if before = [] then (scanWidth [item]).2 ≤ 0
        else LineRight wraplimit (trim before) before

section

variable [Zero K] [Add K] {shaper : GenericShaper K}

theorem GenericShaper.scanWidth_congr {l l' : List (Nat × Nat)}
    (h : l.map Prod.fst = l'.map Prod.fst) :
    scanWidth (l.map shaper.scanItem) = scanWidth (l'.map shaper.scanItem) := by
  have hcps : ∀ l : List (Nat × Nat), scanWidth (l.map shaper.scanItem) =
      (l.map Prod.fst).foldl (fun s g => widenOver s (shaper.scanItem (g, 0))) (0, 0) := by
    intro l
    unfold scanWidth
    rw [foldl_map, foldl_map]
    rfl
  rw [hcps, hcps, h]

variable [Sub K] [LinearOrder K]

theorem GenericShaper.getWidth_trimText (hsub : ∀ x : K, x - 0 = x) {line : List (Nat × Nat)}
    (hlength : line.length < 2 ^ 31) (hline : ∀ item ∈ line, item.1 ≠ newline) :
    shaper.getWidth (trimText (line.map Prod.fst)) =
      max 0 (scanWidth (trim (line.map shaper.scanItem))).2 := by
  have htrim : trim (line.map shaper.scanItem) =
      (line.rdropWhile fun item => !isVisible item.1).map shaper.scanItem :=
    rdropWhile_map _ _ line
  have htext : trimText (line.map Prod.fst) =
      (line.rdropWhile fun item => !isVisible item.1).map Prod.fst :=
    rdropWhile_map _ _ line
  obtain ⟨rest, hrest⟩ : (line.rdropWhile fun item => !isVisible item.1) <+: line :=
    rdropWhile_prefix _ _
  rw [htrim, htext]
  generalize (line.rdropWhile fun item => !isVisible item.1) = kept at hrest
  subst hrest
  rw [length_append] at hlength
  rw [shaper.getWidth_eq hsub (by rw [length_map]; omega)]
  · rw [@scanWidth_congr K _ _ shaper _ kept (by simp)]
  · intro hmem
    obtain ⟨item, hitem, heq⟩ := mem_map.mp hmem
    exact hline item (mem_append_left _ hitem) heq

theorem widthRight_iff (hsub : ∀ x : K, x - 0 = x) {cps : List Nat} {wraplimit : K}
    {range : Range} {kept : List (ScanItem K)} {line : List (Nat × Nat)}
    (hline : codepointsOf cps range = line) (hlength : line.length < 2 ^ 31)
    (hnewline : ∀ item ∈ line, item.1 ≠ newline)
    (hfit : trim (line.map shaper.scanItem) ≠ [] →
      (scanWidth (trim (line.map shaper.scanItem))).2 ≤ wraplimit)
    (hsingle : ∀ item, line = [item] → isVisible item.1 = true →
      kept = trim (line.map shaper.scanItem)) :
    WidthRight shaper cps wraplimit ⟨range, (scanWidth kept).2⟩ ↔
      LineRight wraplimit kept (line.map shaper.scanItem) := by
  have hempty : trim (line.map shaper.scanItem) = [] →
      (scanWidth (trim (line.map shaper.scanItem))).2 = 0 := by
    intro hnil
    rw [hnil]
    rfl
  unfold WidthRight LineRight lineText
  dsimp only
  rw [hline, getWidth_trimText hsub hlength hnewline]
  refine and_congr_right fun heq => ?_
  constructor
  · rintro (hle | ⟨g, htext, hvisible⟩) hnone
    · rwa [heq, max_eq_left hnone] at hle
    · -- a visible codepoint that fits
      obtain ⟨item, hitem, rfl⟩ := map_eq_singleton_iff.mp htext
      have hkept := hsingle item hitem hvisible
      have hne : trim (line.map shaper.scanItem) ≠ [] := by
        rw [hitem]
        unfold trim
        rw [map_singleton, rdropWhile_singleton]
        change (if !isVisible item.1 then [] else _) ≠ _
        rw [hvisible]
        simp
      have hle := hfit hne
      rw [hkept] at heq
      rw [heq, max_eq_left hnone] at hle
      exact hle
  · intro hlimit
    left
    rw [heq]
    rcases le_or_gt (scanWidth (trim (line.map shaper.scanItem))).2 0 with hnone | hsome
    · rw [max_eq_left hnone]
      exact hlimit hnone
    · rw [max_eq_right hsome.le]
      refine hfit fun hnil => ?_
      rw [hempty hnil] at hsome
      exact lt_irrefl _ hsome

end

/-! ## Where the scan breaks -/

section

variable [Zero K] [LinearOrder K] {first : Nat} {wraplimit : K} {items : List (ScanItem K)}

theorem scanRight_of_fits (h : AllFit wraplimit items) :
    ScanRight first wraplimit items ↔ LineRight wraplimit (trim items) items := by
  constructor
  · intro hright
    exact hright.1 h
  · intro hline
    refine ⟨fun _ => hline, ?_⟩
    intro before item after heq _ hwide
    exact absurd hwide (h before item after heq)

variable {before after : List (ScanItem K)} {item : ScanItem K}

theorem first_tooWide_unique {before' after' : List (ScanItem K)} {item' : ScanItem K}
    (heq : before ++ item :: after = before' ++ item' :: after') (hfit : AllFit wraplimit before)
    (hfit' : AllFit wraplimit before') (hwide : TooWide id wraplimit before item)
    (hwide' : TooWide id wraplimit before' item') :
    before = before' ∧ item = item' := by
  rcases append_eq_append_iff.mp heq with ⟨between, hbefore, hrest⟩ |
    ⟨between, hbefore, hrest⟩
  · cases between with
    | nil =>
      rw [nil_append, List.cons.injEq] at hrest
      rw [append_nil] at hbefore
      exact ⟨hbefore.symm, hrest.1⟩
    | cons other between =>
      rw [cons_append, List.cons.injEq] at hrest
      refine absurd hwide (hfit' before item between ?_)
      rw [hbefore, hrest.1]
  · cases between with
    | nil =>
      rw [nil_append, List.cons.injEq] at hrest
      rw [append_nil] at hbefore
      exact ⟨hbefore, hrest.1.symm⟩
    | cons other between =>
      rw [cons_append, List.cons.injEq] at hrest
      refine absurd hwide' (hfit before' item' between ?_)
      rw [hbefore, hrest.1]

theorem scanRight_of_tooWide (heq : items = before ++ item :: after)
    (hfit : AllFit wraplimit before) (hwide : TooWide id wraplimit before item) :
    ScanRight first wraplimit items ↔
      match lastWord (before ++ [item]) with
      | some index => LineRight wraplimit (beforeSpaces before) (items.take (index - first))
      | none =>
        if before = [] then (scanWidth [item]).2 ≤ 0
        else LineRight wraplimit (trim before) before := by
  constructor
  · intro hright
    exact hright.2 before item after heq hfit hwide
  · intro hline
    constructor
    · intro hall
      exact absurd hwide (hall before item after heq)
    · intro before' item' after' heq' hfit' hwide'
      obtain ⟨rfl, rfl⟩ := first_tooWide_unique (heq.symm.trans heq') hfit hfit' hwide hwide'
      exact hline

end

/-! ## The widths of all lines -/

theorem codepointsOf_ofSize {cps : List Nat} {i size : Nat} (hpos : 0 < size)
    (hlength : i + size < 2 ^ 64) :
    codepointsOf cps (ofSize i size) = (cps.zipIdx.drop i).take size := by
  have hlast := @ofSize_last i size (by omega) hlength.le
  have hfirst : (ofSize i size).first = i := rfl
  have hsize : (ofSize i size).getSize = size := by
    unfold getSize
    omega
  unfold codepointsOf
  rw [hfirst, hsize]

theorem codepointsOf_line {cps : List Nat} {i wrapindex : Nat} (hlength : cps.length < 2 ^ 31)
    (hend : wrapindex ≤ findNewline cps i) (hi : i < wrapindex) (h : i < cps.length) :
    codepointsOf cps (ofSize i (wrapindex - i)) =
      (codepointsOf cps (restOfLine cps i)).take (wrapindex - i) := by
  have hle := findNewline_le h.le
  unfold restOfLine
  rw [codepointsOf_ofSize (by omega) (by omega), codepointsOf_ofSize (by omega) (by omega),
    take_take, Nat.min_eq_left (by omega)]

theorem length_restOfLine {cps : List Nat} {i : Nat} (hlength : cps.length < 2 ^ 31)
    (h : i < cps.length) (hnewline : cps[i] ≠ newline) :
    (codepointsOf cps (restOfLine cps i)).length = findNewline cps i - i := by
  obtain ⟨-, -, hlt⟩ := restOfLine_ends hlength h hnewline
  have hle := findNewline_le h.le
  unfold restOfLine
  rw [codepointsOf_ofSize (by omega) (by omega), length_take, length_drop,
    length_zipIdx]
  omega

theorem restOfLine_getElem {cps : List Nat} {i : Nat} (hlength : cps.length < 2 ^ 31)
    (h : i < cps.length) (hnewline : cps[i] ≠ newline) {k : Nat} {item : Nat × Nat}
    (hitem : (codepointsOf cps (restOfLine cps i))[k]? = some item) :
    item.2 = i + k ∧ item.1 ≠ newline := by
  have hle := findNewline_le h.le
  have hcount := length_restOfLine hlength h hnewline
  obtain ⟨hk, rfl⟩ := List.getElem?_eq_some_iff.mp hitem
  rw [hcount] at hk
  unfold restOfLine
  simp only [@codepointsOf_ofSize cps i (findNewline cps i - i) (by omega) (by omega),
    getElem_take, getElem_drop, getElem_zipIdx, Nat.zero_add]
  exact ⟨trivial, ne_newline_of_lt (Nat.le_add_right i k) (by omega) (by omega)⟩

section

variable {κ : Type} [Zero K] [Add K] [Sub K] [LinearOrder K] {shaper : GenericShaper K}

/-- What the scan of the rest of a line reads. -/
def GenericShaper.lineItems (shaper : GenericShaper K) (cps : List Nat) (i : Nat) :
    List (ScanItem K) :=
  (codepointsOf cps (restOfLine cps i)).map shaper.scanItem

theorem widthRight_cut (hsub : ∀ x : K, x - 0 = x) {cps : List Nat} (hlength : cps.length < 2 ^ 31)
    {i wrapindex : Nat} (h : i < cps.length) (hnewline : cps[i] ≠ newline) (hi : i < wrapindex)
    (hend : wrapindex ≤ findNewline cps i) {wraplimit : K} {kept : List (ScanItem K)}
    (hfit : AllFit wraplimit ((shaper.lineItems cps i).take (wrapindex - i)))
    (hsingle : ∀ item, (shaper.lineItems cps i).take (wrapindex - i) = [item] →
      item.isVisible = true → kept = trim ((shaper.lineItems cps i).take (wrapindex - i))) :
    WidthRight shaper cps wraplimit ⟨(lineAt cps i wrapindex).1, (scanWidth kept).2⟩ ↔
      LineRight wraplimit kept ((shaper.lineItems cps i).take (wrapindex - i)) := by
  have hle := findNewline_le h.le
  unfold lineItems at hfit hsingle ⊢
  rw [← map_take] at hfit hsingle ⊢
  rw [lineAt_range hi]
  refine widthRight_iff hsub (codepointsOf_line hlength hend hi h) ?_ ?_ ?_ ?_
  · rw [length_take]
    omega
  · intro item hitem
    obtain ⟨k, hk⟩ := getElem?_of_mem (mem_of_mem_take hitem)
    exact (restOfLine_getElem hlength h hnewline hk).2
  · intro hne
    exact trim_le_of_fits hfit hne
  · intro item hitem hvisible
    refine hsingle (shaper.scanItem item) ?_ hvisible
    rw [hitem]
    rfl

omit [Zero K] [Sub K] [LinearOrder K] in
/-- The items of the rest of a line are at the codepoints from its start on. -/
theorem lineItems_index {cps : List Nat} (hlength : cps.length < 2 ^ 31) {i : Nat}
    (h : i < cps.length) (hnewline : cps[i] ≠ newline) :
    IndexedFrom i (shaper.lineItems cps i) := by
  intro before item after hitems
  have hitem : (shaper.lineItems cps i)[before.length]? = some item := by
    rw [hitems, getElem?_append_right (le_refl _), Nat.sub_self]
    rfl
  unfold lineItems at hitem
  rw [getElem?_map, Option.map_eq_some_iff] at hitem
  obtain ⟨pair, hpair, rfl⟩ := hitem
  exact (restOfLine_getElem hlength h hnewline hpair).1

theorem widthRight_whole (hsub : ∀ x : K, x - 0 = x) {cps : List Nat}
    (hlength : cps.length < 2 ^ 31) {i : Nat} (h : i < cps.length) (hnewline : cps[i] ≠ newline)
    {wraplimit : K} (hfit : AllFit wraplimit (shaper.lineItems cps i)) :
    WidthRight shaper cps wraplimit
        ⟨(lineAt cps i (findNewline cps i)).1, (scanWidth (trim (shaper.lineItems cps i))).2⟩ ↔
      ScanRight i wraplimit (shaper.lineItems cps i) := by
  obtain ⟨-, -, hlt⟩ := restOfLine_ends hlength h hnewline
  have hwhole : (shaper.lineItems cps i).take (findNewline cps i - i) = shaper.lineItems cps i := by
    refine take_of_length_le ?_
    unfold lineItems
    rw [length_map, length_restOfLine hlength h hnewline]
  rw [scanRight_of_fits hfit, widthRight_cut hsub hlength h hnewline hlt (le_refl _)]
  · rw [hwhole]
  · rwa [hwhole]
  · intro item _ _
    rw [hwhole]

variable {before after : List (ScanItem K)} {item : ScanItem K}

section

variable (hsub : ∀ x : K, x - 0 = x) {cps : List Nat} (hlength : cps.length < 2 ^ 31) {i : Nat}
  (h : i < cps.length) (hnewline : cps[i] ≠ newline) {wraplimit : K}
  (hitems : shaper.lineItems cps i = before ++ item :: after) (hfit : AllFit wraplimit before)
  (hwide : TooWide id wraplimit before item)
include hsub hlength h hnewline hitems hfit hwide

theorem widthRight_word {index : Nat} (hword : lastWord (before ++ [item]) = some index) :
    WidthRight shaper cps wraplimit
        ⟨(lineAt cps i index).1, (scanWidth (beforeSpaces before)).2⟩ ↔
      ScanRight i wraplimit (shaper.lineItems cps i) := by
  obtain ⟨l, space, word, r, hsplit, hindex, hspace, -⟩ := lastWord_behind hword
  have hall : shaper.lineItems cps i = (l ++ [space]) ++ word :: (r ++ after) := by
    rw [hitems, ← singleton_append, ← append_assoc, hsplit]
    simp
  have hwordIndex := lineItems_index hlength h hnewline _ _ _ hall
  have hlengths := congrArg length hsplit
  have hitemsLength := congrArg length hitems
  unfold lineItems at hitemsLength
  rw [length_map, length_restOfLine hlength h hnewline] at hitemsLength
  rw [length_append, length_cons] at hitemsLength
  simp only [length_append, length_cons, length_nil] at hlengths hwordIndex
  have htake : (shaper.lineItems cps i).take (index - i) = l ++ [space] := by
    rw [hall, take_left' (by simp; omega)]
  have hkept : before.take (index - i) = l ++ [space] := by
    rw [← htake, hitems, take_append_of_le_length (by omega)]
  rw [scanRight_of_tooWide hitems hfit hwide, hword,
    widthRight_cut hsub hlength h hnewline (by omega) (by omega)]
  · rw [htake, ← hkept]
    exact hfit.take _
  · -- a line that ends with a space
    intro other hother hvisible
    rw [htake] at hother
    have hlast := congrArg getLast? hother
    rw [getLast?_concat, getLast?_singleton, Option.some.injEq] at hlast
    subst hlast
    unfold ScanItem.isVisible at hvisible
    rw [hspace] at hvisible
    simp at hvisible

theorem widthRight_codepoint (hword : lastWord (before ++ [item]) = none) :
    WidthRight shaper cps wraplimit
        ⟨(lineAt cps i (if i < item.index then item.index else i + 1)).1,
          (scanWidth (trim before)).2⟩ ↔
      ScanRight i wraplimit (shaper.lineItems cps i) := by
  have hindex := lineItems_index hlength h hnewline _ _ _ hitems
  have hitemsLength := congrArg length hitems
  unfold lineItems at hitemsLength
  rw [length_map, length_restOfLine hlength h hnewline, length_append,
    length_cons] at hitemsLength
  rw [scanRight_of_tooWide hitems hfit hwide, hword]
  by_cases hnone : before = []
  · subst hnone
    rw [if_pos rfl, if_neg (by rw [hindex]; simp), lineAt_range (Nat.lt_succ_self i),
      Nat.succ_eq_add_one, Nat.add_sub_cancel_left]
    have hpairs : ∃ pair, (codepointsOf cps (restOfLine cps i)).take 1 = [pair] ∧
        shaper.scanItem pair = item := by
      obtain ⟨pair, rest, hpair, hscan, -⟩ := map_eq_cons_iff.mp hitems
      exact ⟨pair, by rw [hpair]; rfl, hscan⟩
    obtain ⟨pair, hpair, rfl⟩ := hpairs
    have hline := @codepointsOf_line cps i (i + 1) hlength (by simp at hitemsLength; omega)
      (Nat.lt_succ_self i) h
    rw [Nat.add_sub_cancel_left, hpair] at hline
    have hvisible : isVisible pair.1 = true := hwide.1
    have htrim : trim ([pair].map shaper.scanItem) = [shaper.scanItem pair] := by
      unfold trim
      rw [map_singleton, rdropWhile_singleton]
      change (if !isVisible pair.1 then _ else _) = _
      rw [hvisible]
      rfl
    have hdrawn := @getWidth_trimText K _ _ shaper _ _ hsub [pair]
      (by simp) (by
        intro other hother
        rw [mem_singleton.mp hother]
        have hfirst : (codepointsOf cps (restOfLine cps i))[0]? = some pair := by
          have htaken := congrArg (fun l => l[0]?) hpair
          rw [getElem?_take_of_lt (Nat.zero_lt_one)] at htaken
          exact htaken
        exact (restOfLine_getElem hlength h hnewline hfirst).2)
    rw [htrim] at hdrawn
    unfold WidthRight lineText
    rw [hline]
    rw [hdrawn]
    change (0 : K) = _ ∧ (_ ∨ ∃ g, [pair.1] = [g] ∧ _) ↔ _
    constructor
    · rintro ⟨hzero, -⟩
      rw [hzero]
      exact le_max_right _ _
    · intro hle
      exact ⟨(max_eq_left hle).symm, .inr ⟨pair.1, rfl, hvisible⟩⟩
  · have hpos := length_pos_of_ne_nil hnone
    have htake : (shaper.lineItems cps i).take (item.index - i) = before := by
      rw [hitems, take_left' (by omega)]
    rw [if_neg hnone, if_pos (by omega),
      widthRight_cut hsub hlength h hnewline (by omega) (by omega)]
    · rw [htake]
    · rwa [htake]
    · intro other _ _
      rw [htake]

end

omit [Add K] [Sub K] [LinearOrder K] in
theorem breakAt_widths {range : Range} {before : List (ScanItem K)} {item : ScanItem K}
    (h : item.isVisible = true) :
    breakAt id range (WrapScan.after before) item =
      match lastWord (before ++ [item]) with
      | some index => (index, (scanWidth (beforeSpaces before)).2)
      | none => (if range.first < item.index then item.index else range.first + 1,
          (scanWidth (trim before)).2) := by
  obtain ⟨hwidth, hword⟩ := after_spec before
  obtain ⟨hout, hspaces⟩ := after_widths before
  have hlast : lastWord (before ++ [item]) =
      if isWhitespace (WrapScan.after before).prev then some item.index
      else (WrapScan.after before).firstindexafterspace := by
    rw [lastWord_concat, ← hwidth, ← hword, h]
    simp only [true_and]
  rw [hlast, ← hout, ← hspaces]
  unfold breakAt
  generalize (if isWhitespace (WrapScan.after before).prev then some item.index
    else (WrapScan.after before).firstindexafterspace) = last
  cases last <;> rfl

theorem widthRight_line (hsub : ∀ x : K, x - 0 = x) (codepoints : ColoredCodepoints κ)
    (hlength : codepoints.cps.length < 2 ^ 31) (wraplimit : K) {i : Nat}
    (h : i < codepoints.cps.length) (hnewline : codepoints.cps[i] ≠ newline) {wrapindex : Nat}
    {width : K} (hscan : shaper.computeWordWrapIndex codepoints (restOfLine codepoints.cps i)
      wraplimit = (wrapindex, width)) :
    WidthRight shaper codepoints.cps wraplimit ⟨(lineAt codepoints.cps i wrapindex).1, width⟩ ↔
      ScanRight i wraplimit (shaper.lineItems codepoints.cps i) := by
  obtain ⟨hfirst, hlast, -⟩ := restOfLine_ends hlength h hnewline
  unfold computeWordWrapIndex at hscan
  rw [validOr_restOfLine hlength h hnewline] at hscan
  change scanLoop id _ wraplimit (shaper.lineItems codepoints.cps i) (.after []) = _ at hscan
  rcases @scanLoop_cases K _ _ id (restOfLine codepoints.cps i) wraplimit []
      (shaper.lineItems codepoints.cps i) with
    ⟨before, item, after, hitems, hfits, hwide, hbreak⟩ | ⟨hfits, hend⟩
  · rw [nil_append] at hwide hbreak
    have hfit : AllFit wraplimit before := by
      intro earlier other later heq
      exact hfits earlier other later heq
    rw [hscan, breakAt_widths hwide.1, hfirst] at hbreak
    cases hword : lastWord (before ++ [item]) with
    | some index =>
      rw [hword] at hbreak
      cases hbreak
      exact widthRight_word hsub hlength h hnewline hitems hfit hwide hword
    | none =>
      rw [hword] at hbreak
      cases hbreak
      exact widthRight_codepoint hsub hlength h hnewline hitems hfit hwide hword
  · have hfit : AllFit wraplimit (shaper.lineItems codepoints.cps i) := by
      intro earlier other later heq
      exact hfits earlier other later heq
    obtain ⟨hindex, hwidth⟩ := Prod.mk.inj (hscan.symm.trans hend)
    rw [nil_append, (after_widths _).1, id_eq] at hwidth
    have hwhole := widthRight_whole hsub hlength h hnewline hfit
    rwa [← hwidth, ← hlast, ← hindex] at hwhole

theorem widthRight_newline {cps : List Nat} (hlength : cps.length < 2 ^ 31)
    {wraplimit : K} :
    WidthRight shaper cps wraplimit ⟨.invalid, 0⟩ ↔ 0 ≤ wraplimit := by
  have hnone : lineText cps .invalid = [] := by
    have hfirst : invalid.first = 2 ^ 64 - 1 := rfl
    unfold lineText codepointsOf
    rw [drop_eq_nil_of_le, take_nil, map_nil]
    rw [length_zipIdx, hfirst]
    omega
  have hdrawn : shaper.getWidth (trimText []) = 0 := by
    unfold GenericShaper.getWidth trimText
    rw [rdropWhile_nil, if_pos rfl]
  unfold WidthRight
  rw [hnone, hdrawn]
  constructor
  · rintro ⟨-, hle | ⟨g, hg, -⟩⟩
    · exact hle
    · cases hg
  · intro hle
    exact ⟨rfl, .inl hle⟩

end

/-! ## All lines -/

section

variable [Zero K] {cps : List Nat} {f : Range → Option (Nat × K)} {Q : WrappedLine K → Prop}

/-- The lines from an index on are made, and each is as it should be. -/
def AllLinesFrom (cps : List Nat) (f : Range → Option (Nat × K)) (Q : WrappedLine K → Prop)
    (i : Nat) : Prop :=
  ∃ lines, linesFrom cps f cps.length i = some lines ∧ ∀ line ∈ lines, Q line

/-- The line of a turn is as it should be. -/
def TurnRight (cps : List Nat) (f : Range → Option (Nat × K)) (Q : WrappedLine K → Prop)
    (i : Nat) : Prop :=
  ∀ h : i < cps.length,
    (cps[i] = newline → Q ⟨.invalid, 0⟩) ∧
    (cps[i] ≠ newline → ∃ wrapindex width, f (restOfLine cps i) = some (wrapindex, width) ∧
      Q ⟨(lineAt cps i wrapindex).1, width⟩)

theorem allLinesFrom_newline {i : Nat} (h : i < cps.length) (hnewline : cps[i] = newline) :
    AllLinesFrom cps f Q i ↔ Q ⟨.invalid, 0⟩ ∧ AllLinesFrom cps f Q (i + 1) := by
  unfold AllLinesFrom
  rw [linesFrom_newline h hnewline]
  constructor
  · rintro ⟨lines, hlines, hall⟩
    obtain ⟨rest, hrest, rfl⟩ := Option.map_eq_some_iff.mp hlines
    rw [forall_mem_cons] at hall
    exact ⟨hall.1, rest, hrest, hall.2⟩
  · rintro ⟨hq, rest, hrest, hall⟩
    exact ⟨_, Option.map_eq_some_iff.mpr ⟨rest, hrest, rfl⟩, forall_mem_cons.mpr ⟨hq, hall⟩⟩

theorem allLinesFrom_line {i : Nat} (h : i < cps.length) (hnewline : cps[i] ≠ newline) :
    AllLinesFrom cps f Q i ↔ ∃ wrapindex width, f (restOfLine cps i) = some (wrapindex, width) ∧
      Q ⟨(lineAt cps i wrapindex).1, width⟩ ∧
        AllLinesFrom cps f Q (lineAt cps i wrapindex).2 := by
  unfold AllLinesFrom
  constructor
  · rintro ⟨lines, hlines, hall⟩
    cases hf : f (restOfLine cps i) with
    | none =>
      rw [linesFrom_fault h hnewline hf] at hlines
      cases hlines
    | some result =>
      rw [linesFrom_line h hnewline hf] at hlines
      obtain ⟨rest, hrest, rfl⟩ := Option.map_eq_some_iff.mp hlines
      rw [forall_mem_cons] at hall
      exact ⟨_, _, rfl, hall.1, rest, hrest, hall.2⟩
  · rintro ⟨wrapindex, width, hf, hq, rest, hrest, hall⟩
    rw [linesFrom_line h hnewline hf]
    exact ⟨_, Option.map_eq_some_iff.mpr ⟨rest, hrest, rfl⟩, forall_mem_cons.mpr ⟨hq, hall⟩⟩

theorem allLinesFrom_iff (i : Nat) :
    AllLinesFrom cps f Q i ↔
      ∀ j, Relation.ReflTransGen (Turn cps f) i j → TurnRight cps f Q j := by
  refine forall_turns_iff (fun i => ?_) i
  rcases Nat.lt_or_ge i cps.length with h | h
  · by_cases hnewline : cps[i] = newline
    · rw [allLinesFrom_newline h hnewline]
      constructor
      · rintro ⟨hq, hrest⟩
        refine ⟨fun _ => ⟨fun _ => hq, fun hne => absurd hnewline hne⟩, fun k hturn => ?_⟩
        cases hturn with
        | newline => exact hrest
        | line _ hne => exact absurd hnewline hne
      · rintro ⟨hq, hall⟩
        exact ⟨(hq h).1 hnewline, hall _ (.newline h hnewline)⟩
    · rw [allLinesFrom_line h hnewline]
      constructor
      · rintro ⟨wrapindex, width, hf, hq, hrest⟩
        refine ⟨fun _ => ⟨fun hyes => absurd hyes hnewline, fun _ => ⟨wrapindex, width, hf, hq⟩⟩,
          fun k hturn => ?_⟩
        cases hturn with
        | newline _ hyes => exact absurd hyes hnewline
        | line _ _ hf' =>
          cases hf.symm.trans hf'
          exact hrest
      · rintro ⟨hq, hall⟩
        obtain ⟨wrapindex, width, hf, hq⟩ := (hq h).2 hnewline
        exact ⟨wrapindex, width, hf, hq, hall _ (.line h hnewline hf)⟩
  · refine iff_of_true ⟨[], linesFrom_end h, by simp⟩
      ⟨fun hlt => absurd hlt h.not_gt, fun k hturn => absurd hturn.lt.1 h.not_gt⟩

end

/-- One letter. -/
def oneLetter : ColoredCodepoints Unit := ⟨[0x41], []⟩

end Lhatove.Font
