import Mathlib.Data.List.TakeWhile
import Lhatove.Lib.Matching
import Lhatove.Font.WrapRanges

/-!
# Colors of glyphs

What the shapers make of the colors of a text, against the strings that the text is made of.

- `Describes`: changes of color against the color of each codepoint;
- `Coloring`: what the loops of both shapers keep of colors, and one pass for both;
- `KeepsColors`: changes that are met by the clusters of HarfBuzz;
- `glyphs_colored_iff`: when all glyphs have the colors of their strings.
-/

namespace Lhatove.Font

open Graphics (GlyphIndex IndexedColor)
open Math (Vector2)
open List

variable {κ K : Type}

/-! ## Changes of color -/

/-- The color after some changes. -/
def lastColor (white : κ) (changes : List (IndexedColor κ)) : κ :=
  (changes.getLast?.map IndexedColor.color).getD white

/-- The color that changes give to an index: that of the last one up to it. -/
def colorAt (white : κ) (changes : List (IndexedColor κ)) (k : Nat) : κ :=
  lastColor white (changes.filter fun c => c.index ≤ k)

/-- The color of the string that each codepoint is of. -/
def pieceColors (utf8 : Utf8) : List (ColoredString κ) → List κ
  | [] => []
  | cstr :: strs =>
    (if cstr.str = [] then []
    else
      match utf8.decode cstr.str with
      | .error _ => []
      | .ok cps => List.replicate cps.length cstr.color) ++ pieceColors utf8 strs

/-- Changes, each at an index of its own, that give all indices their colors. -/
structure Describes (white : κ) (changes : List (IndexedColor κ)) (pieces : List κ) : Prop where
  inside : ∀ c ∈ changes, 0 ≤ c.index ∧ c.index < pieces.length
  increasing : changes.Pairwise fun c c' => c.index < c'.index
  color : ∀ k (h : k < pieces.length), pieces[k] = colorAt white changes k

theorem lastColor_concat (white : κ) (changes : List (IndexedColor κ)) (c : IndexedColor κ) :
    lastColor white (changes ++ [c]) = c.color := by
  unfold lastColor
  rw [getLast?_concat]
  rfl

theorem colorAt_concat_of_lt {white : κ} {changes : List (IndexedColor κ)} {c : IndexedColor κ}
    {k : Nat} (h : (k : Int) < c.index) :
    colorAt white (changes ++ [c]) k = colorAt white changes k := by
  unfold colorAt
  rw [filter_append, filter_singleton, decide_eq_false (not_le.mpr h), cond_false,
    append_nil]

theorem colorAt_concat_of_le {white : κ} {changes : List (IndexedColor κ)} {c : IndexedColor κ}
    {k : Nat} (h : c.index ≤ k) : colorAt white (changes ++ [c]) k = c.color := by
  unfold colorAt
  rw [filter_append, filter_singleton, decide_eq_true h, cond_true, lastColor_concat]

theorem colorAt_of_forall {white : κ} {changes : List (IndexedColor κ)} {k : Nat}
    (h : ∀ c ∈ changes, c.index ≤ k) : colorAt white changes k = lastColor white changes := by
  unfold colorAt
  rw [filter_eq_self.mpr (by simpa using h)]

theorem describes_nil (white : κ) : Describes white [] [] := by
  refine ⟨by simp, .nil, ?_⟩
  intro k h
  cases h

theorem Describes.concat {white : κ} {changes : List (IndexedColor κ)} {pieces : List κ}
    (h : Describes white changes pieces) {n : Nat} (hn : 0 < n) (color : κ) :
    Describes white (changes ++ [⟨color, pieces.length⟩]) (pieces ++ replicate n color) := by
  refine ⟨?_, ?_, ?_⟩
  · intro c hc
    rw [length_append, length_replicate]
    rcases mem_append.mp hc with hc | hc
    · have hin := h.inside c hc
      omega
    · rw [mem_singleton.mp hc]
      dsimp only
      omega
  · refine pairwise_append.mpr ⟨h.increasing, pairwise_singleton _ _, ?_⟩
    intro c hc c' hc'
    rw [mem_singleton.mp hc']
    exact (h.inside c hc).2
  · intro k hk
    rcases Nat.lt_or_ge k pieces.length with hlt | hge
    · rw [getElem_append_left hlt, colorAt_concat_of_lt (by dsimp only; omega)]
      exact h.color k hlt
    · rw [getElem_append_right hge, getElem_replicate,
        colorAt_concat_of_le (by dsimp only; omega)]

theorem addStrings_describes {utf8 : Utf8} {white : κ} {strs : List (ColoredString κ)}
    {before codepoints : ColoredCodepoints κ} {pieces : List κ}
    (hbefore : Describes white before.colors pieces) (hlength : before.cps.length = pieces.length)
    (h : addStrings utf8 strs before = .ok codepoints) :
    Describes white codepoints.colors (pieces ++ pieceColors utf8 strs) ∧
      codepoints.cps.length = (pieces ++ pieceColors utf8 strs).length := by
  induction strs generalizing before pieces with
  | nil =>
    cases h
    unfold pieceColors
    rw [append_nil]
    exact ⟨hbefore, hlength⟩
  | cons cstr strs ih =>
    unfold addStrings at h
    unfold pieceColors
    by_cases hempty : cstr.str = []
    · rw [if_pos hempty] at h ⊢
      exact ih hbefore hlength h
    · rw [if_neg hempty] at h ⊢
      cases hdecode : utf8.decode cstr.str with
      | error what =>
        rw [hdecode] at h
        cases h
      | ok cps =>
        rw [hdecode] at h
        have hpos := length_pos_of_ne_nil (utf8.decode_ne_nil _ _ hempty hdecode)
        rw [← append_assoc]
        refine ih ?_ ?_ h
        · rw [hlength]
          exact hbefore.concat hpos cstr.color
        · rw [length_append, length_append, length_replicate, hlength]

theorem getCodepointsFromString_describes [DecidableEq κ] {utf8 : Utf8} {white : κ}
    {strs : List (ColoredString κ)} {codepoints : ColoredCodepoints κ}
    (h : getCodepointsFromString utf8 white strs = .ok codepoints) :
    Describes white codepoints.colors (pieceColors utf8 strs) ∧
      codepoints.cps.length = (pieceColors utf8 strs).length := by
  unfold getCodepointsFromString at h
  split at h
  · cases h
  next added hadd =>
    cases h
    obtain ⟨hdescribes, hlength⟩ := @addStrings_describes κ utf8 white strs ⟨[], []⟩ added []
      (describes_nil white) rfl hadd
    rw [nil_append] at hdescribes hlength
    unfold dropWhite
    split
    · rename_i c hone
      split
      · rename_i hwhite
        refine ⟨⟨by simp, .nil, ?_⟩, hlength⟩
        intro k hk
        rw [hdescribes.color k hk, hone]
        have hle : c.index ≤ (k : Int) := by
          rw [hwhite.1]
          exact Int.natCast_nonneg k
        rw [← nil_append [c], colorAt_concat_of_le hle, hwhite.2]
        rfl
      · exact ⟨hdescribes, hlength⟩
    · exact ⟨hdescribes, hlength⟩

/-! ## Passes over glyphs -/

/-- The cluster of a glyph, and the glyph that is put out for it. -/
structure Shown where
  cluster : Nat
  glyph : Option GlyphIndex

/-- The part of a layout that is about colors. -/
structure Coloring (κ : Type) where
  colorindex : Nat
  colorToAdd : Option κ
  glyphs : List GlyphIndex
  colors : List (IndexedColor κ)

namespace Coloring

def meet (changes : List (IndexedColor κ)) (index : Nat) (s : Coloring κ) : Coloring κ :=
  match changes[s.colorindex]? with
  | some c =>
    if c.index = index then
      { s with colorToAdd := some c.color, colorindex := s.colorindex + 1 }
    else s
  | none => s

def flush (s : Coloring κ) : Coloring κ :=
  match s.colorToAdd with
  | some color => { s with colors := s.colors ++ [⟨color, s.glyphs.length⟩], colorToAdd := none }
  | none => s

def pass (changes : List (IndexedColor κ)) (s : Coloring κ) (shown : Shown) : Coloring κ :=
  let s := s.meet changes shown.cluster
  match shown.glyph with
  | some g => { s.flush with glyphs := s.flush.glyphs ++ [g] }
  | none => s

/-- Before the first glyph: the changes in front of it are passed over. -/
def start (front : List (IndexedColor κ)) : Coloring κ :=
  ⟨front.length, front.getLast?.map IndexedColor.color, [], []⟩

end Coloring

/-- The changes that some clusters meet in order, behind those in front of them. -/
def metBy (front behind : List (IndexedColor κ)) (seen : List Shown) : List (IndexedColor κ) :=
  front ++ behind.take
    (matched (behind.map IndexedColor.index) (seen.map fun shown => (shown.cluster : Int)))

/-- A coloring has the glyphs that are shown; each has the color of the last change met. -/
structure Colored (white : κ) (front behind : List (IndexedColor κ)) (seen : List Shown)
    (s : Coloring κ) : Prop where
  index : s.colorindex = (metBy front behind seen).length
  glyphs : s.glyphs = seen.filterMap Shown.glyph
  next : s.colorToAdd.getD (lastColor white s.colors) = lastColor white (metBy front behind seen)
  below : ∀ c ∈ s.colors, c.index < s.glyphs.length
  colors : ∀ l shown r, seen = l ++ shown :: r → shown.glyph.isSome = true →
    colorAt white s.colors (l.filterMap Shown.glyph).length =
      lastColor white (metBy front behind (l ++ [shown]))

section

variable {white : κ} {front behind : List (IndexedColor κ)} {seen : List Shown} {s : Coloring κ}

theorem metBy_concat (front behind : List (IndexedColor κ)) (seen : List Shown) (shown : Shown) :
    metBy front behind (seen ++ [shown]) =
      match (front ++ behind)[(metBy front behind seen).length]? with
      | some c =>
        if c.index = shown.cluster then metBy front behind seen ++ [c]
        else metBy front behind seen
      | none => metBy front behind seen := by
  unfold metBy
  rw [map_append, map_singleton, matched_concat]
  have hle := matched_le_length (behind.map IndexedColor.index)
    (seen.map fun shown => (shown.cluster : Int))
  rw [length_map] at hle
  generalize matched (behind.map IndexedColor.index)
    (seen.map fun shown => (shown.cluster : Int)) = n at hle
  unfold matchOne
  rw [length_append, length_take, Nat.min_eq_left hle,
    getElem?_append_right (Nat.le_add_right _ _), Nat.add_sub_cancel_left, getElem?_map]
  cases hnext : behind[n]? with
  | none => rfl
  | some c =>
    simp only [Option.map_some, Option.some.injEq]
    by_cases hindex : c.index = shown.cluster
    · rw [if_pos hindex, if_pos hindex, take_add_one, hnext, append_assoc]
      rfl
    · rw [if_neg hindex, if_neg hindex]

theorem Colored.meet (h : Colored white front behind seen s) (shown : Shown) :
    (s.meet (front ++ behind) shown.cluster).colorindex =
        (metBy front behind (seen ++ [shown])).length ∧
      (s.meet (front ++ behind) shown.cluster).glyphs = s.glyphs ∧
      (s.meet (front ++ behind) shown.cluster).colors = s.colors ∧
      (s.meet (front ++ behind) shown.cluster).colorToAdd.getD (lastColor white s.colors) =
        lastColor white (metBy front behind (seen ++ [shown])) := by
  unfold Coloring.meet
  rw [metBy_concat, h.index]
  cases hnext : (front ++ behind)[(metBy front behind seen).length]? with
  | none => exact ⟨h.index, rfl, rfl, h.next⟩
  | some c =>
    dsimp only
    by_cases hindex : c.index = shown.cluster
    · rw [if_pos hindex, if_pos hindex, lastColor_concat, length_append]
      exact ⟨rfl, rfl, rfl, rfl⟩
    · rw [if_neg hindex, if_neg hindex]
      exact ⟨h.index, rfl, rfl, h.next⟩

theorem Coloring.flush_spec (s : Coloring κ) (white : κ) :
    s.flush.colorindex = s.colorindex ∧ s.flush.glyphs = s.glyphs ∧ s.flush.colorToAdd = none ∧
      lastColor white s.flush.colors = s.colorToAdd.getD (lastColor white s.colors) ∧
      (s.flush.colors = s.colors ∨
        ∃ color, s.flush.colors = s.colors ++ [⟨color, s.glyphs.length⟩]) := by
  unfold Coloring.flush
  cases hadd : s.colorToAdd with
  | none => exact ⟨rfl, rfl, hadd, rfl, .inl rfl⟩
  | some color => exact ⟨rfl, rfl, rfl, lastColor_concat _ _ _, .inr ⟨color, rfl⟩⟩

theorem concat_split {α : Type} {seen l r : List α} {last a : α}
    (h : seen ++ [last] = l ++ a :: r) :
    (seen = l ∧ a = last) ∨ ∃ r', seen = l ++ a :: r' := by
  cases r using reverseRecOn with
  | nil =>
    obtain ⟨hl, ha⟩ := append_inj' h rfl
    rw [List.cons.injEq] at ha
    exact .inl ⟨hl, ha.1.symm⟩
  | append_singleton r other =>
    right
    refine ⟨r, ?_⟩
    rw [← cons_append, ← append_assoc] at h
    exact (append_inj' h rfl).1

theorem Colored.pass (h : Colored white front behind seen s) (shown : Shown) :
    Colored white front behind (seen ++ [shown]) (s.pass (front ++ behind) shown) := by
  obtain ⟨hindex, hglyphs, hcolors, hnext⟩ := h.meet shown
  unfold Coloring.pass
  generalize s.meet (front ++ behind) shown.cluster = m at hindex hglyphs hcolors hnext
  have hseen : (seen ++ [shown]).filterMap Shown.glyph =
      seen.filterMap Shown.glyph ++ shown.glyph.toList := by
    cases hglyph : shown.glyph <;> simp [hglyph]
  cases hglyph : shown.glyph with
  | none =>
    rw [hglyph, Option.toList_none, append_nil] at hseen
    refine ⟨hindex, ?_, ?_, ?_, ?_⟩
    · rw [hseen, hglyphs, h.glyphs]
    · rw [hcolors, hnext]
    · rw [hcolors, hglyphs]
      exact h.below
    · intro l other r heq hsome
      rcases concat_split heq with ⟨-, rfl⟩ | ⟨r', hsplit⟩
      · rw [hglyph] at hsome
        cases hsome
      · rw [hcolors]
        exact h.colors l other r' hsplit hsome
  | some g =>
    obtain ⟨hflushIndex, hflushGlyphs, hflushAdd, hflushLast, hflushColors⟩ := m.flush_spec white
    rw [hcolors, hnext] at hflushLast
    rw [hcolors, hglyphs] at hflushColors
    rw [hglyph, Option.toList_some] at hseen
    have hbelow : ∀ c ∈ m.flush.colors, c.index ≤ s.glyphs.length := by
      intro c hc
      rcases hflushColors with heq | ⟨color, heq⟩
      · rw [heq] at hc
        exact (h.below c hc).le
      · rw [heq] at hc
        rcases mem_append.mp hc with hc | hc
        · exact (h.below c hc).le
        · rw [mem_singleton.mp hc]
    refine ⟨hflushIndex.trans hindex, ?_, ?_, ?_, ?_⟩
    · dsimp only
      rw [hseen, hflushGlyphs, hglyphs, h.glyphs]
    · dsimp only
      rw [hflushAdd, Option.getD_none, hflushLast]
    · intro c hc
      have hle := hbelow c hc
      dsimp only
      rw [hflushGlyphs, hglyphs, length_append, length_singleton]
      omega
    · intro l other r heq hsome
      rcases concat_split heq with ⟨rfl, rfl⟩ | ⟨r', hsplit⟩
      · -- the glyph that is put out
        rw [← h.glyphs, colorAt_of_forall hbelow, hflushLast]
      · rw [← h.colors l other r' hsplit hsome]
        have hlt : (l.filterMap Shown.glyph).length < s.glyphs.length := by
          rw [h.glyphs, hsplit, filterMap_append, length_append, filterMap_cons]
          obtain ⟨g', hg'⟩ := Option.isSome_iff_exists.mp hsome
          rw [hg']
          rw [length_cons]
          omega
        rcases hflushColors with hkept | ⟨color, hkept⟩
        · rw [hkept]
        · rw [hkept, colorAt_concat_of_lt (by dsimp only; omega)]

theorem colored_start (white : κ) (front behind : List (IndexedColor κ)) :
    Colored white front behind [] (Coloring.start front) := by
  have hfront : metBy front behind [] = front := by
    unfold metBy
    exact append_nil _
  refine ⟨?_, rfl, ?_, by simp [Coloring.start], ?_⟩
  · rw [hfront]
    rfl
  · rw [hfront]
    rfl
  · intro l shown r heq
    exact absurd heq (by simp)

theorem colored_foldl (h : Colored white front behind seen s) (rest : List Shown) :
    Colored white front behind (seen ++ rest)
      (rest.foldl (Coloring.pass (front ++ behind)) s) := by
  induction rest generalizing seen s with
  | nil =>
    rw [append_nil]
    exact h
  | cons shown rest ih =>
    have hrest := ih (h.pass shown)
    rwa [append_assoc, singleton_append] at hrest

end

/-! ## The shapers -/

/-- The changes in front of a range. -/
def frontOf (offset : Nat) (changes : List (IndexedColor κ)) : List (IndexedColor κ) :=
  changes.takeWhile fun c => c.index < offset

/-- The other changes. -/
def behindOf (offset : Nat) (changes : List (IndexedColor κ)) : List (IndexedColor κ) :=
  changes.dropWhile fun c => c.index < offset

theorem front_behind (offset : Nat) (changes : List (IndexedColor κ)) :
    frontOf offset changes ++ behindOf offset changes = changes :=
  takeWhile_append_dropWhile

/-- All glyphs that are shown have positions, and the colors of their clusters. -/
def GlyphsColored (white : κ) (pieces : List κ) (events : List Shown) (shaped : Shaped κ K) :
    Prop :=
  shaped.positions.map GlyphPosition.glyphIndex = events.filterMap Shown.glyph ∧
    ∀ l shown r, events = l ++ shown :: r → shown.glyph.isSome = true →
      pieces[shown.cluster]? =
        some (colorAt white shaped.colors (l.filterMap Shown.glyph).length)

/-- At each glyph, the last of the changes that the clusters up to there meet in order is to the
color of the glyph's cluster. -/
def KeepsColors (white : κ) (pieces : List κ) (front behind : List (IndexedColor κ))
    (events : List Shown) : Prop :=
  ∀ l shown r, events = l ++ shown :: r → shown.glyph.isSome = true →
    ∃ n, IsGreatest {n | n ≤ behind.length ∧
        ((behind.take n).map IndexedColor.index).Sublist
          ((l ++ [shown]).map fun other => (other.cluster : Int))} n ∧
      pieces[shown.cluster]? = some (lastColor white (front ++ behind.take n))

namespace Layout

/-- The part that is about colors. -/
def coloring (s : Layout κ K) : Coloring κ :=
  ⟨s.colorindex, s.colorToAdd, s.positions.map GlyphPosition.glyphIndex, s.colors⟩

theorem meetColor_coloring (codepoints : ColoredCodepoints κ) (index : Nat) (s : Layout κ K) :
    (s.meetColor codepoints index).coloring = s.coloring.meet codepoints.colors index := by
  unfold meetColor Coloring.meet
  change _ = match codepoints.colors[s.colorindex]? with
    | some c | none => _
  cases codepoints.colors[s.colorindex]? with
  | none => rfl
  | some c =>
    dsimp only
    by_cases hindex : c.index = index
    · rw [if_pos hindex, if_pos hindex]
      rfl
    · rw [if_neg hindex, if_neg hindex]

theorem flushColor_coloring (s : Layout κ K) : s.flushColor.coloring = s.coloring.flush := by
  rcases s with ⟨curpos, remainder, maxwidth, prevglyph, colorindex, colorToAdd, positions, colors⟩
  cases colorToAdd with
  | none => rfl
  | some color =>
    unfold flushColor Coloring.flush coloring
    rw [length_map]

theorem push_coloring (position : GlyphPosition K) (s : Layout κ K) :
    (s.push position).coloring =
      { s.coloring with glyphs := s.coloring.glyphs ++ [position.glyphIndex] } := by
  unfold push coloring
  rw [map_append, map_singleton]

theorem space_coloring [Zero K] [Add K] [LinearOrder K] (rounding : Rounding K) (extraspacing : K)
    (g : Nat) (s : Layout κ K) : (s.space rounding extraspacing g).coloring = s.coloring := by
  unfold space
  split <;> rfl

theorem skipColors_eq (offset : Nat) (changes : List (IndexedColor κ)) (colorindex : Nat)
    (colorToAdd : Option κ) :
    skipColors offset changes colorindex colorToAdd =
      (colorindex + (frontOf offset changes).length,
        ((frontOf offset changes).getLast?.map IndexedColor.color).or colorToAdd) := by
  induction changes generalizing colorindex colorToAdd with
  | nil => rfl
  | cons c changes ih =>
    unfold skipColors
    by_cases hle : (offset : Int) ≤ c.index
    · have hfront : frontOf offset (c :: changes) = [] :=
        takeWhile_cons_of_neg (by simpa using hle)
      rw [if_pos hle, hfront]
      rfl
    · have hfront : frontOf offset (c :: changes) = c :: frontOf offset changes :=
        takeWhile_cons_of_pos (by simpa using hle)
      rw [if_neg hle, ih, hfront, length_cons, getLast?_cons]
      refine Prod.ext (by dsimp only; omega) ?_
      cases (frontOf offset changes).getLast? <;> rfl

theorem start_coloring (codepoints : ColoredCodepoints κ)
    (hcolors : ∀ c ∈ codepoints.colors, 0 ≤ c.index) (range : Range) (curpos : Vector2 K)
    (zero maxwidth : K) :
    (start codepoints range curpos zero maxwidth).coloring =
      Coloring.start (frontOf range.getOffset codepoints.colors) := by
  unfold start coloring Coloring.start
  by_cases hoffset : 0 < range.getOffset
  · rw [if_pos hoffset, skipColors_eq, Nat.zero_add, Option.or_none]
    rfl
  · have hfront : frontOf range.getOffset codepoints.colors = [] := by
      cases hchanges : codepoints.colors with
      | nil => rfl
      | cons c changes =>
        have hle := hcolors c (by rw [hchanges]; exact mem_cons_self)
        exact takeWhile_cons_of_neg (by rw [decide_eq_true_iff]; omega)
    rw [if_neg hoffset, hfront]
    rfl

end Layout

theorem glyphsColored_iff {white : κ} {pieces : List κ} {front behind : List (IndexedColor κ)}
    {events : List Shown} {shaped : Shaped κ K} {s : Coloring κ}
    (h : Colored white front behind events s)
    (hglyphs : shaped.positions.map GlyphPosition.glyphIndex = s.glyphs)
    (hcolors : shaped.colors = s.colors) :
    GlyphsColored white pieces events shaped ↔ KeepsColors white pieces front behind events := by
  have hmet : ∀ seen : List Shown, IsGreatest {n | n ≤ behind.length ∧
      ((behind.take n).map IndexedColor.index).Sublist
        (seen.map fun other => (other.cluster : Int))}
      (matched (behind.map IndexedColor.index) (seen.map fun other => (other.cluster : Int))) := by
    intro seen
    have hgreatest := isGreatest_matched (behind.map IndexedColor.index)
      (seen.map fun other => (other.cluster : Int))
    simp only [length_map, ← map_take] at hgreatest
    exact hgreatest
  constructor
  · rintro ⟨-, hall⟩ l shown r heq hsome
    refine ⟨_, hmet (l ++ [shown]), ?_⟩
    rw [hall l shown r heq hsome, hcolors, h.colors l shown r heq hsome]
    rfl
  · intro hkeeps
    refine ⟨hglyphs.trans h.glyphs, ?_⟩
    intro l shown r heq hsome
    obtain ⟨n, hn, hpiece⟩ := hkeeps l shown r heq hsome
    rw [hpiece, hcolors, h.colors l shown r heq hsome, hn.unique (hmet (l ++ [shown]))]
    rfl

namespace GenericShaper

variable [Zero K] [Add K] [LinearOrder K] (shaper : GenericShaper K)

/-- What is put out for a codepoint. -/
def shown (item : Nat × Nat) : Shown :=
  ⟨item.2, if item.1 = newline ∨ item.1 = carriageReturn then none
    else some (shaper.glyphIndex item.1)⟩

theorem step_coloring (codepoints : ColoredCodepoints κ) (offset : Vector2 K) (extraspacing : K)
    (s : Layout κ K) (item : Nat × Nat) :
    (shaper.step codepoints offset extraspacing s item).coloring =
      s.coloring.pass codepoints.colors (shaper.shown item) := by
  unfold step Coloring.pass shown
  dsimp only
  rw [← Layout.meetColor_coloring]
  generalize s.meetColor codepoints item.2 = met
  by_cases hnewline : item.1 = newline
  · rw [if_pos hnewline, if_pos (.inl hnewline)]
    rfl
  rw [if_neg hnewline]
  by_cases hcr : item.1 = carriageReturn
  · rw [if_pos hcr, if_pos (.inr hcr)]
    rfl
  rw [if_neg hcr, if_neg (by tauto)]
  rw [← Layout.flushColor_coloring]
  generalize met.flushColor = flushed
  -- neither places nor the codepoint before are about colors
  change Layout.coloring (Layout.space _ _ _ { flushed.push _ with curpos := _ }) = _
  rw [Layout.space_coloring]
  change (flushed.push _).coloring = _
  rw [Layout.push_coloring]

theorem foldl_coloring (codepoints : ColoredCodepoints κ) (offset : Vector2 K) (extraspacing : K)
    (s : Layout κ K) (items : List (Nat × Nat)) :
    (items.foldl (shaper.step codepoints offset extraspacing) s).coloring =
      (items.map shaper.shown).foldl (Coloring.pass codepoints.colors) s.coloring := by
  induction items generalizing s with
  | nil => rfl
  | cons item items ih =>
    rw [foldl_cons, ih, step_coloring, map_cons, foldl_cons]

end GenericShaper

namespace HarfbuzzShaper

variable [Zero K] [Add K] [Mul K] [LinearOrder K] (shaper : HarfbuzzShaper K)

/-- What is put out for a glyph of HarfBuzz. -/
def shown (cps : List Nat) (run : HbRun) (info : HbGlyph) : Shown :=
  let clustercodepoint := cps.getD info.cluster 0
  ⟨info.cluster, if clustercodepoint = newline ∨ clustercodepoint = carriageReturn then none
    else some (if clustercodepoint = 9 ∧ shaper.usingSpacesForTab = true then
      shaper.spaceGlyphIndex else ⟨info.codepoint, run.index⟩)⟩

theorem step_coloring (codepoints : ColoredCodepoints κ) (offset : Vector2 K) (extraspacing : K)
    (run : HbRun) (s : Layout κ K) (info : HbGlyph) :
    (shaper.step codepoints offset extraspacing run s info).coloring =
      s.coloring.pass codepoints.colors (shaper.shown codepoints.cps run info) := by
  unfold step Coloring.pass shown
  dsimp only
  rw [← Layout.meetColor_coloring]
  generalize s.meetColor codepoints info.cluster = met
  generalize codepoints.cps.getD info.cluster 0 = g
  by_cases hnewline : g = newline
  · rw [if_pos hnewline, if_pos (.inl hnewline)]
    rfl
  rw [if_neg hnewline]
  by_cases hcr : g = carriageReturn
  · rw [if_pos hcr, if_pos (.inr hcr)]
  have hshown : ¬ (g = newline ∨ g = carriageReturn) := by tauto
  rw [if_neg hcr, if_neg hshown]
  rw [← Layout.flushColor_coloring]
  generalize met.flushColor = flushed
  rw [Layout.space_coloring]
  change (flushed.push _).coloring = _
  rw [Layout.push_coloring]

theorem foldl_coloring (codepoints : ColoredCodepoints κ) (offset : Vector2 K) (extraspacing : K)
    (s : Layout κ K) (runs : List HbRun) :
    (runs.foldl (fun s run =>
        run.glyphs.foldl (shaper.step codepoints offset extraspacing run) s) s).coloring =
      (runs.flatMap fun run => run.glyphs.map (shaper.shown codepoints.cps run)).foldl
        (Coloring.pass codepoints.colors) s.coloring := by
  have hrun : ∀ (run : HbRun) (glyphs : List HbGlyph) (s : Layout κ K),
      (glyphs.foldl (shaper.step codepoints offset extraspacing run) s).coloring =
        (glyphs.map (shaper.shown codepoints.cps run)).foldl (.pass codepoints.colors)
          s.coloring := by
    intro run glyphs
    induction glyphs with
    | nil =>
      intro s
      rfl
    | cons info glyphs ih =>
      intro s
      rw [foldl_cons, ih, step_coloring, map_cons, foldl_cons]
  induction runs generalizing s with
  | nil => rfl
  | cons run runs ih =>
    rw [foldl_cons, ih, hrun, flatMap_cons, foldl_append]

end HarfbuzzShaper

/-! ## Codepoints one after the other -/

section

variable {white : κ} {changes : List (IndexedColor κ)} {pieces : List κ} {first : Nat}

theorem frontOf_lt {c : IndexedColor κ} (h : c ∈ frontOf first changes) : c.index < first := by
  have hlt := mem_takeWhile_imp h
  exact of_decide_eq_true hlt

theorem behindOf_ge (hincreasing : changes.Pairwise fun c c' => c.index < c'.index)
    {c : IndexedColor κ} (h : c ∈ behindOf first changes) : (first : Int) ≤ c.index := by
  have hsorted : (behindOf first changes).Pairwise fun c c' => c.index < c'.index :=
    hincreasing.sublist (dropWhile_sublist _)
  cases hbehind : behindOf first changes with
  | nil =>
    rw [hbehind] at h
    cases h
  | cons head rest =>
    have hhead : (first : Int) ≤ head.index := by
      have hnot := head?_dropWhile_not (fun c : IndexedColor κ => decide (c.index < first))
        changes
      have hsame : (changes.dropWhile fun c : IndexedColor κ => decide (c.index < first)) =
          head :: rest := hbehind
      rw [hsame] at hnot
      exact not_lt.mp (of_decide_eq_false hnot)
    rw [hbehind] at h hsorted
    rcases mem_cons.mp h with rfl | h
    · exact hhead
    · exact hhead.trans ((pairwise_cons.mp hsorted).1 c h).le

theorem take_matched_consecutive {behind : List (IndexedColor κ)}
    (hincreasing : behind.Pairwise fun c c' => c.index < c'.index)
    (hfirst : ∀ c ∈ behind, (first : Int) ≤ c.index) (n : Nat) :
    behind.take (matched (behind.map IndexedColor.index)
        ((range' first n).map fun k : Nat => (k : Int))) =
      behind.filter fun c => c.index < ((first + n : Nat) : Int) := by
  induction n with
  | zero =>
    rw [filter_eq_nil_iff.mpr]
    · rfl
    · intro c hc
      rw [decide_eq_true_iff, not_lt]
      exact hfirst c hc
  | succ n ih =>
    rw [range'_1_concat, map_append, map_singleton, matched_concat]
    generalize matched (behind.map IndexedColor.index)
      ((range' first n).map fun k : Nat => (k : Int)) = m at ih
    have hsplit := take_append_drop m behind
    have hsorted := hincreasing
    rw [← hsplit, pairwise_append] at hsorted
    have htaken : ∀ c ∈ behind.take m, c.index < ((first + n : Nat) : Int) := by
      intro c hc
      rw [ih, mem_filter] at hc
      exact of_decide_eq_true hc.2
    have hrest : ∀ c ∈ behind.drop m, ((first + n : Nat) : Int) ≤ c.index := by
      intro c hc
      by_contra hlt
      have hin : c ∈ behind.take m := by
        rw [ih, mem_filter]
        exact ⟨mem_of_mem_drop hc, decide_eq_true (not_le.mp hlt)⟩
      exact lt_irrefl _ (hsorted.2.2 c hin c hc)
    have hkept : (behind.take m).filter (fun c => c.index < ((first + (n + 1) : Nat) : Int)) =
        behind.take m := by
      rw [filter_eq_self]
      intro c hc
      have hlt := htaken c hc
      rw [decide_eq_true_iff]
      omega
    conv_rhs => rw [← hsplit, filter_append, hkept]
    have hnext : behind[m]? = (behind.drop m).head? := by
      rw [head?_drop]
    unfold matchOne
    rw [getElem?_map, hnext]
    cases hdrop : behind.drop m with
    | nil =>
      exact (append_nil _).symm
    | cons c rest =>
      rw [hdrop] at hrest hsorted hnext
      have hbehind := (pairwise_cons.mp hsorted.2.1).1
      have hge := hrest c mem_cons_self
      rw [head?_cons, Option.map_some]
      by_cases hmeets : c.index = ((first + n : Nat) : Int)
      · rw [if_pos (congrArg some hmeets), take_add_one, hnext, filter_cons,
          if_pos (by rw [decide_eq_true_iff]; omega), filter_eq_nil_iff.mpr]
        · rfl
        · intro other hother
          have hlt := hbehind other hother
          rw [decide_eq_true_iff]
          omega
      · rw [if_neg (fun heq => hmeets (Option.some.inj heq)), filter_eq_nil_iff.mpr,
          append_nil]
        intro other hother
        rw [decide_eq_true_iff]
        rcases mem_cons.mp hother with rfl | hother
        · omega
        · have hlt := hbehind other hother
          omega

theorem snd_codepointsOf {cps : List Nat} {range : Range} (hrange : range.first ≤ range.last)
    (hlast : range.last < cps.length) :
    (codepointsOf cps range).map Prod.snd = range' range.first range.getSize := by
  unfold codepointsOf Range.getSize
  rw [map_take, map_drop, zipIdx_map_snd, drop_range',
    take_range'_of_length_ge (by omega), Nat.zero_add, Nat.mul_one]

theorem keepsColors_consecutive (h : Describes white changes pieces) {events : List Shown}
    (hevents : events.map Shown.cluster = range' first events.length)
    (hend : first + events.length ≤ pieces.length) :
    KeepsColors white pieces (frontOf first changes) (behindOf first changes) events := by
  intro l shown r heq _
  have hclusters : (l ++ [shown]).map Shown.cluster = range' first (l.length + 1) := by
    have htake := congrArg (take (l.length + 1)) hevents
    rw [take_range'_of_length_ge (by rw [heq]; simp), ← map_take] at htake
    rw [← htake, heq, ← singleton_append (l := r), ← append_assoc,
      take_left' (by simp)]
  have hcluster : shown.cluster = first + l.length := by
    have hlast := congrArg getLast? hclusters
    rw [map_append, map_singleton, getLast?_concat, range'_1_concat,
      getLast?_concat] at hlast
    exact Option.some.inj hlast
  have hlength := congrArg length heq
  rw [length_append, length_cons] at hlength
  have hbehind : (behindOf first changes).Pairwise fun c c' => c.index < c'.index :=
    h.increasing.sublist (dropWhile_sublist _)
  have htake := take_matched_consecutive hbehind (fun c hc => behindOf_ge h.increasing hc)
    (l.length + 1)
  have hgreatest := isGreatest_matched ((behindOf first changes).map IndexedColor.index)
    ((range' first (l.length + 1)).map fun k : Nat => (k : Int))
  simp only [length_map, ← map_take] at hgreatest
  have htext : ((l ++ [shown]).map fun other => (other.cluster : Int)) =
      (range' first (l.length + 1)).map fun k : Nat => (k : Int) := by
    rw [← hclusters, map_map]
    rfl
  refine ⟨_, by rw [htext]; exact hgreatest, ?_⟩
  rw [htake, hcluster, getElem?_eq_getElem (by omega), h.color]
  unfold colorAt
  conv_lhs => rw [← front_behind first changes, filter_append]
  rw [filter_eq_self.mpr]
  · congr 3
    refine filter_congr fun c _ => ?_
    rw [decide_eq_decide]
    omega
  · intro c hc
    have hlt := frontOf_lt hc
    rw [decide_eq_true_iff]
    omega

end

/-! ## Both shapers -/

/-- What is put out for the codepoints of a range. -/
def GenericShaper.events [Zero K] [Add K] [LinearOrder K] (shaper : GenericShaper K)
    (cps : List Nat) (range : Range) : List Shown :=
  (codepointsOf cps (validOr range cps.length)).map shaper.shown

/-- What is put out for the glyphs of some runs. -/
def HarfbuzzShaper.events [Zero K] [Add K] [Mul K] [LinearOrder K] (shaper : HarfbuzzShaper K)
    (cps : List Nat) (runs : List HbRun) : List Shown :=
  runs.flatMap fun run => run.glyphs.map (shaper.shown cps run)

/-- The range that `HarfbuzzShaper` goes over. -/
def shapedRange (cps : List Nat) (range : Range) : Range :=
  if cps = [] then range else validOr range cps.length

section

variable {white : κ} {pieces : List κ} {codepoints : ColoredCodepoints κ} {range : Range}
  [Zero K] [Add K] [Sub K] [LinearOrder K]

theorem validOr_inside {size : Nat} (hpos : 0 < size) (hsize : size < 2 ^ 31)
    (hrange : range.isValid = true → range.last < size) :
    (validOr range size).first ≤ (validOr range size).last ∧ (validOr range size).last < size := by
  unfold validOr
  by_cases hvalid : range.isValid = true
  · rw [if_pos hvalid]
    exact ⟨Range.isValid_iff.mp hvalid, hrange hvalid⟩
  · have hlast := @Range.ofSize_last 0 size (by omega) (by omega)
    rw [if_neg hvalid]
    constructor
    · exact Nat.zero_le _
    · omega

theorem GenericShaper.glyphs_colored (shaper : GenericShaper K)
    (hdescribes : Describes white codepoints.colors pieces)
    (hpieces : codepoints.cps.length = pieces.length) (hlength : codepoints.cps.length < 2 ^ 31)
    (hrange : range.isValid = true → range.last < codepoints.cps.length) (offset : Vector2 K)
    (extraspacing : K) :
    GlyphsColored white pieces (shaper.events codepoints.cps range)
      (shaper.computeGlyphPositions codepoints range offset extraspacing) := by
  let valid := validOr range codepoints.cps.length
  let origin : Vector2 K :=
    if shaper.trueType then ⟨offset.x, offset.y + shaper.baseline⟩ else offset
  let s := (codepointsOf codepoints.cps valid).foldl (shaper.step codepoints origin extraspacing)
    (.start codepoints valid origin 0 0)
  have hcolored : Colored white (frontOf valid.getOffset codepoints.colors)
      (behindOf valid.getOffset codepoints.colors) (shaper.events codepoints.cps range)
      s.coloring := by
    have hrun := colored_foldl (colored_start white (frontOf valid.getOffset codepoints.colors)
      (behindOf valid.getOffset codepoints.colors)) (shaper.events codepoints.cps range)
    rw [front_behind, nil_append] at hrun
    rw [shaper.foldl_coloring, Layout.start_coloring codepoints
      (fun c hc => (hdescribes.inside c hc).1)]
    exact hrun
  rw [glyphsColored_iff hcolored rfl rfl]
  have hinside : (shaper.events codepoints.cps range).map Shown.cluster =
      (codepointsOf codepoints.cps valid).map Prod.snd := by
    unfold events
    rw [map_map]
    rfl
  rcases Nat.eq_zero_or_pos codepoints.cps.length with hnone | hpos
  · have hnil : shaper.events codepoints.cps range = [] := by
      unfold events codepointsOf
      rw [eq_nil_of_length_eq_zero hnone]
      simp
    rw [hnil]
    intro l shown r heq
    exact absurd heq (by simp)
  · obtain ⟨hvalid, hlast⟩ := validOr_inside hpos hlength hrange
    rw [snd_codepointsOf hvalid hlast] at hinside
    have hcount : (shaper.events codepoints.cps range).length = valid.getSize := by
      have hlengths := congrArg length hinside
      rwa [length_map, length_range'] at hlengths
    refine keepsColors_consecutive hdescribes (by rw [hcount]; exact hinside) ?_
    rw [hcount, ← hpieces]
    change valid.first + (valid.last - valid.first + 1) ≤ _
    change valid.first ≤ valid.last at hvalid
    change valid.last < _ at hlast
    omega

theorem HarfbuzzShaper.shaped_colored_iff [Mul K] (shaper : HarfbuzzShaper K)
    (hdescribes : Describes white codepoints.colors pieces) (offset : Vector2 K)
    (extraspacing : K) {runs : List HbRun}
    (hruns : shaper.computeBufferRanges codepoints.cps (shapedRange codepoints.cps range) =
      some runs) :
    ∃ shaped, shaper.computeGlyphPositions codepoints range offset extraspacing = some shaped ∧
      (GlyphsColored white pieces (shaper.events codepoints.cps runs) shaped ↔
        KeepsColors white pieces
          (frontOf (shapedRange codepoints.cps range).getOffset codepoints.colors)
          (behindOf (shapedRange codepoints.cps range).getOffset codepoints.colors)
          (shaper.events codepoints.cps runs)) := by
  let valid := shapedRange codepoints.cps range
  let origin : Vector2 K := ⟨offset.x, offset.y + shaper.baseline⟩
  let s := runs.foldl
    (fun s run => run.glyphs.foldl (shaper.step codepoints origin extraspacing run) s)
    (.start codepoints valid origin 0 origin.x)
  have hcolored : Colored white (frontOf valid.getOffset codepoints.colors)
      (behindOf valid.getOffset codepoints.colors) (shaper.events codepoints.cps runs)
      s.coloring := by
    have hrun := colored_foldl (colored_start white (frontOf valid.getOffset codepoints.colors)
      (behindOf valid.getOffset codepoints.colors)) (shaper.events codepoints.cps runs)
    rw [front_behind, nil_append] at hrun
    rw [shaper.foldl_coloring, Layout.start_coloring codepoints
      (fun c hc => (hdescribes.inside c hc).1)]
    exact hrun
  have hshaped : ∃ shaped, shaper.computeGlyphPositions codepoints range offset extraspacing =
      some shaped ∧ shaped.positions = s.positions ∧ shaped.colors = s.colors := by
    unfold computeGlyphPositions
    unfold shapedRange at hruns
    dsimp only
    rw [hruns]
    exact ⟨_, rfl, rfl, rfl⟩
  obtain ⟨shaped, hsome, hpositions, hcolors⟩ := hshaped
  refine ⟨shaped, hsome, glyphsColored_iff hcolored ?_ hcolors⟩
  rw [hpositions]
  rfl

end

/-- UTF-8, of codepoints of one or two bytes. -/
def decodeShort : List (BitVec 8) → Except String (List Nat)
  | [] => .ok []
  | [a] => if a.toNat < 0x80 then .ok [a.toNat] else .error "Not enough space"
  | a :: b :: bytes =>
    if a.toNat < 0x80 then (decodeShort (b :: bytes)).map (a.toNat :: ·)
    else (decodeShort bytes).map ((a.toNat % 0x20 * 0x40 + b.toNat % 0x40) :: ·)

theorem decodeShort_ne_nil (str : List (BitVec 8)) (cps : List Nat) (hstr : str ≠ [])
    (h : decodeShort str = .ok cps) : cps ≠ [] := by
  rintro rfl
  cases str with
  | nil => exact hstr rfl
  | cons a bytes =>
    cases bytes with
    | nil =>
      unfold decodeShort at h
      split at h <;> cases h
    | cons b bytes =>
      unfold decodeShort at h
      split at h
      · cases hrest : decodeShort (b :: bytes) <;> rw [hrest] at h <;> cases h
      · cases hrest : decodeShort bytes <;> rw [hrest] at h <;> cases h

def shortUtf8 : Utf8 := ⟨decodeShort, decodeShort_ne_nil⟩

/-- Two letters in red. -/
def redLetters : List (ColoredString Nat) := [⟨[0xD7, 0x90, 0xD7, 0x91], 0xFF0000⟩]

def redCodepoints : ColoredCodepoints Nat := ⟨[0x5D0, 0x5D1], [⟨0xFF0000, 0⟩]⟩

end Lhatove.Font
