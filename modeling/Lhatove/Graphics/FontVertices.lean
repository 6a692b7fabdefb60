import Mathlib.Data.List.Sort
import Lhatove.Graphics.FontAtlas
import Lhatove.Lib.Sections

/-!
# Vertices of a text

`Font::generateVertices`: the quads of a shaped text, and the commands that draw them.

- A glyph that is new may make the font's texture grow; what was generated is then thrown
  away, and the text is started again.
- Commands are merged while the texture stays the same, and sorted at the end.
- What clamping and gamma correction make of a color is any function.
-/

namespace Lhatove.Graphics

open List

/-- `TextShaper::GlyphPosition` -/
structure GlyphPosition where
  x : ℚ
  y : ℚ
  glyphIndex : GlyphIndex

structure IndexedColor (κ : Type) where
  color : κ
  index : Int

/-- `Font::GlyphVertex` -/
structure GlyphVertex (χ : Type) where
  place : GlyphPlace
  color : χ

/-- What `computeGlyphPositions` gives, and the colors. -/
structure ShapedText (κ χ : Type) where
  glyphpositions : List GlyphPosition
  colors : List (IndexedColor κ)
  constantcolor : χ
  /-- A color as it is drawn with the constant one. -/
  tinted : κ → χ

namespace Font

/-- `Font::DrawCommand` -/
structure DrawCommand where
  texture : Nat
  startvertex : Nat
  vertexcount : Nat
  deriving DecidableEq

/-- `drawsort` -/
def DrawCommand.before (a b : DrawCommand) : Bool :=
  if a.texture ≠ b.texture then a.texture < b.texture else a.startvertex < b.startvertex

/-- What the loop over the glyphs has made so far. -/
structure Progress (χ : Type) where
  commands : List DrawCommand
  vertices : List (GlyphVertex χ)
  curcolori : Nat
  curcolor : χ

variable {κ χ : Type}

/-- The color of the next glyph. -/
def Progress.recolor (text : ShapedText κ χ) (i : Nat) (p : Progress χ) : Progress χ :=
  match text.colors[p.curcolori]? with
  | some c =>
    if c.index = i then
      { p with curcolor := text.tinted c.color, curcolori := p.curcolori + 1 }
    else p
  | none => p

/-- A corner at the position of its glyph. -/
def moved (info : GlyphPosition) (v : GlyphPlace) : GlyphPlace :=
  { v with x := v.x + info.x, y := v.y + info.y }

/-- The vertices of a glyph. -/
def quad (info : GlyphPosition) (glyph : Glyph) : List GlyphPlace :=
  List.ofFn fun j => moved info (glyph.vertices j)

/-- Four vertices more to draw: with the last command, or with a new one. -/
def countQuad (texture size : Nat) (commands : List DrawCommand) : List DrawCommand :=
  match commands.getLast? with
  | some back =>
    if back.texture ≠ texture then commands ++ [⟨texture, size - 4, 4⟩]
    else commands.dropLast ++ [{ back with vertexcount := back.vertexcount + 4 }]
  | none => [⟨texture, size - 4, 4⟩]

/-- A glyph is drawn. -/
def Progress.draw (info : GlyphPosition) (glyph : Glyph) (p : Progress χ) : Progress χ :=
  match glyph.texture with
  | some texture =>
    let vertices := p.vertices ++ (quad info glyph).map fun place => ⟨place, p.curcolor⟩
    { p with
      vertices := vertices
      commands := countQuad texture vertices.length p.commands }
  | none => p

/-- How the loop over the glyphs ends. -/
inductive Pass (χ : Type)
  | done (p : Progress χ)
  | restart
  | threw (e : FontError)

/-- The loop over the glyphs, from the `i`-th on, until the texture cache is invalidated. -/
def generatePass (env : FontEnv) (fuel : Nat) (text : ShapedText κ χ) :
    Nat → List GlyphPosition → Progress χ → Font → Option (Pass χ × Font)
  | _, [], p, font => some (.done p, font)
  | i, info :: glyphpositions, p, font =>
    match findGlyph env fuel info.glyphIndex font with
    | none => none
    | some (.error e, font) => some (.threw e, font)
    | some (.ok glyph, font') =>
      if font.textureCacheID ≠ font'.textureCacheID then some (.restart, font')
      else generatePass env fuel text (i + 1) glyphpositions
        ((p.recolor text i).draw info glyph) font'

/-- The loop with its restarts, behind the vertices that there were. -/
def generateLoop (env : FontEnv) (fuel : Nat) (text : ShapedText κ χ)
    (vertices : List (GlyphVertex χ)) :
    Nat → Font → FontResult (List DrawCommand × List (GlyphVertex χ))
  | 0, _ => none
  | restarts + 1, font =>
    match generatePass env fuel text 0 text.glyphpositions
        ⟨[], vertices, 0, text.constantcolor⟩ font with
    | none => none
    | some (.threw e, font) => some (.error e, font)
    | some (.restart, font) => generateLoop env fuel text vertices restarts font
    | some (.done p, font) =>
      some (.ok (p.commands.mergeSort fun a b => !b.before a, p.vertices), font)

/-- `Font::generateVertices` -/
def generateVertices (env : FontEnv) (fuel : Nat) (text : ShapedText κ χ)
    (vertices : List (GlyphVertex χ)) (font : Font) :
    FontResult (List DrawCommand × List (GlyphVertex χ)) :=
  generateLoop env fuel text vertices fuel font

/-! ## What the commands are for -/

/-- The glyphs that are drawn, as they are in the glyph table. -/
def visible (font : Font) (glyphpositions : List GlyphPosition) :
    List (GlyphPosition × Glyph) :=
  glyphpositions.filterMap fun info =>
    (font.glyphs.lookup info.glyphIndex).bind fun glyph =>
      if glyph.texture.isSome then some (info, glyph) else none

/-- The vertices of a command. -/
def DrawCommand.range (c : DrawCommand) : Section := ⟨c.startvertex, c.vertexcount⟩

/-- Commands draw quads from a vertex on, each with the texture of the glyph that is shown. -/
structure Counts (start : Nat) (shown : List (GlyphPosition × Glyph))
    (commands : List DrawCommand) : Prop where
  fills : Fills start (commands.map DrawCommand.range) (start + 4 * shown.length)
  quads : ∀ c ∈ commands, 0 < c.vertexcount ∧ 4 ∣ c.vertexcount
  textures : ∀ c ∈ commands, ∀ k, c.startvertex ≤ start + 4 * k →
    start + 4 * k < c.startvertex + c.vertexcount →
    ∃ glyph, shown[k]? = some glyph ∧ glyph.2.texture = some c.texture

/-- The vertices behind `before` are the quads of the visible glyphs, and commands in some order
draw each of them once, with the texture that its glyph has. -/
structure Partitions (font : Font) (glyphpositions : List GlyphPosition)
    (before after : List (GlyphVertex χ)) (commands : List DrawCommand) : Prop where
  kept : ∃ added, after = before ++ added ∧ added.map GlyphVertex.place =
    (font.visible glyphpositions).flatMap fun shown => quad shown.1 shown.2
  drawn : ∃ l : List DrawCommand, l.Perm commands ∧
    Counts before.length (font.visible glyphpositions) l

/-! ## A pass over the glyphs -/

variable {env : FontEnv} {fuel : Nat} {text : ShapedText κ χ} {font font' : Font}
  {before : List (GlyphVertex χ)}

/-- Entries of the glyph table stay. -/
def Extends (font font' : Font) : Prop :=
  ∀ g glyph, font.glyphs.lookup g = some glyph → font'.glyphs.lookup g = some glyph

/-- **A glyph is looked up**: the cache ID is the same only if no glyph's texture is another. -/
theorem findGlyph_spec {g : GlyphIndex} {result : Except FontError Glyph}
    (h : findGlyph env fuel g font = some (result, font')) :
    ∃ n, Grown n font font' ∧ (n = 0 → Extends font font') ∧
      ∀ glyph, result = .ok glyph → font'.glyphs.lookup g = some glyph := by
  rw [findGlyph] at h
  cases hlookup : font.glyphs.lookup g with
  | some glyph =>
    rw [hlookup] at h
    cases h
    refine ⟨0, .refl _, fun _ _ _ h => h, fun glyph' h => ?_⟩
    cases h
    exact hlookup
  | none =>
    rw [hlookup] at h
    obtain ⟨⟨n, hgrown, hkeeps⟩, hstored⟩ := addGlyph_added g font result font' h
    refine ⟨n, hgrown, fun hn g' glyph hlookup' => ?_, hstored⟩
    rw [hkeeps hn g']
    · exact hlookup'
    · rintro rfl
      cases hlookup.symm.trans hlookup'

/-! ### Commands -/

theorem Counts.nil (start : Nat) : Counts start [] [] where
  fills := .nil
  quads := fun _ h => absurd h not_mem_nil
  textures := fun _ h => absurd h not_mem_nil

theorem countQuad_cases (texture size : Nat) (commands : List DrawCommand) :
    countQuad texture size commands = commands ++ [⟨texture, size - 4, 4⟩] ∨
      ∃ init back, commands = init ++ [back] ∧ back.texture = texture ∧
        countQuad texture size commands =
          init ++ [{ back with vertexcount := back.vertexcount + 4 }] := by
  rw [countQuad]
  cases hback : commands.getLast? with
  | none =>
    rw [getLast?_eq_none_iff.mp hback]
    exact .inl rfl
  | some back =>
    obtain ⟨init, rfl⟩ := getLast?_eq_some_iff.mp hback
    dsimp only
    split_ifs with hother
    · exact .inl rfl
    · rw [dropLast_concat]
      exact .inr ⟨init, back, rfl, not_not.mp hother, rfl⟩

/-- **A quad more** is drawn with its glyph's texture. -/
theorem Counts.countQuad {start : Nat} {shown : List (GlyphPosition × Glyph)}
    {commands : List DrawCommand} (h : Counts start shown commands)
    {glyph : GlyphPosition × Glyph} {texture : Nat} (htexture : glyph.2.texture = some texture) :
    Counts start (shown ++ [glyph])
      (countQuad texture (start + 4 * shown.length + 4) commands) := by
  have hlength : start + 4 * (shown ++ [glyph]).length = start + 4 * shown.length + 4 := by
    rw [length_append, length_singleton]
    omega
  -- what a command drew before is drawn with the same glyphs
  have hold : ∀ c ∈ commands, ∀ k, c.startvertex ≤ start + 4 * k →
      start + 4 * k < c.startvertex + c.vertexcount →
      ∃ glyph', (shown ++ [glyph])[k]? = some glyph' ∧ glyph'.2.texture = some c.texture := by
    intro c hc k hle hlt
    obtain ⟨glyph', hglyph, heq⟩ := h.textures c hc k hle hlt
    obtain ⟨hk, -⟩ := List.getElem?_eq_some_iff.mp hglyph
    exact ⟨glyph', by rw [List.getElem?_append_left hk]; exact hglyph, heq⟩
  have hnew : ∀ k, start + 4 * shown.length ≤ start + 4 * k →
      start + 4 * k < start + 4 * shown.length + 4 → (shown ++ [glyph])[k]? = some glyph := by
    intro k hle hlt
    have hk : k = shown.length := by omega
    rw [hk, getElem?_append_right le_rfl, Nat.sub_self]
    rfl
  rcases countQuad_cases texture (start + 4 * shown.length + 4) commands with
    heq | ⟨init, back, rfl, hback, heq⟩
  · rw [heq, Nat.add_sub_cancel]
    refine ⟨?_, ?_, ?_⟩
    · rw [hlength, map_append]
      exact h.fills.snoc 4
    · intro c hc
      rcases mem_append.mp hc with hc | hc
      · exact h.quads c hc
      · rw [mem_singleton.mp hc]
        exact ⟨by norm_num, dvd_rfl⟩
    · intro c hc k hle hlt
      rcases mem_append.mp hc with hc | hc
      · exact hold c hc k hle hlt
      · rw [mem_singleton.mp hc] at hle hlt ⊢
        exact ⟨glyph, hnew k hle hlt, htexture⟩
  · have hmem : back ∈ init ++ [back] := mem_append_right _ (mem_singleton_self _)
    have hfills := h.fills
    rw [map_append, map_singleton] at hfills
    rw [heq]
    refine ⟨?_, ?_, ?_⟩
    · rw [hlength, map_append]
      exact hfills.extend 4
    · intro c hc
      rcases mem_append.mp hc with hc | hc
      · exact h.quads c (mem_append_left _ hc)
      · rw [mem_singleton.mp hc]
        obtain ⟨hpos, hdvd⟩ := h.quads back hmem
        exact ⟨Nat.add_pos_left hpos 4, Nat.dvd_add hdvd dvd_rfl⟩
    · intro c hc k hle hlt
      rcases mem_append.mp hc with hc | hc
      · exact hold c (mem_append_left _ hc) k hle hlt
      · rw [mem_singleton.mp hc] at hle hlt ⊢
        have hend : start + 4 * shown.length = back.startvertex + back.vertexcount :=
          hfills.snoc_inv.2
        rcases Nat.lt_or_ge (start + 4 * k) (back.startvertex + back.vertexcount) with hin | hout
        · exact hold back hmem k hle hin
        · have hlt' : start + 4 * k < back.startvertex + (back.vertexcount + 4) := hlt
          refine ⟨glyph, hnew k (by omega) (by omega), ?_⟩
          rw [htexture, hback]

/-! ### The loop -/

/-- What the pass has made of the glyphs it has come by. -/
structure Drawn (font : Font) (before : List (GlyphVertex χ)) (passed : List GlyphPosition)
    (p : Progress χ) : Prop where
  stored : ∀ info ∈ passed, (font.glyphs.lookup info.glyphIndex).isSome = true
  kept : ∃ added, p.vertices = before ++ added ∧ added.map GlyphVertex.place =
    (font.visible passed).flatMap fun shown => quad shown.1 shown.2
  counts : Counts before.length (font.visible passed) p.commands

theorem Drawn.start (font : Font) (before : List (GlyphVertex χ)) (curcolor : χ) :
    Drawn font before [] ⟨[], before, 0, curcolor⟩ where
  stored := fun _ h => absurd h not_mem_nil
  kept := ⟨[], (append_nil _).symm, rfl⟩
  counts := .nil _

theorem visible_extends {passed : List GlyphPosition} (h : Extends font font')
    (hstored : ∀ info ∈ passed, (font.glyphs.lookup info.glyphIndex).isSome = true) :
    font'.visible passed = font.visible passed := by
  refine filterMap_congr fun info hmem => ?_
  obtain ⟨glyph, hglyph⟩ := Option.isSome_iff_exists.mp (hstored info hmem)
  rw [hglyph, h _ _ hglyph]

variable {passed : List GlyphPosition} {p : Progress χ}

theorem Drawn.extends (h : Drawn font before passed p) (hextends : Extends font font') :
    Drawn font' before passed p := by
  have hvisible := visible_extends hextends h.stored
  refine ⟨fun info hmem => ?_, ?_, ?_⟩
  · obtain ⟨glyph, hglyph⟩ := Option.isSome_iff_exists.mp (h.stored info hmem)
    rw [hextends _ _ hglyph]
    rfl
  · rw [hvisible]
    exact h.kept
  · rw [hvisible]
    exact h.counts

theorem Drawn.recolor (h : Drawn font before passed p) (text : ShapedText κ χ) (i : Nat) :
    Drawn font before passed (p.recolor text i) := by
  rw [Progress.recolor]
  split
  · split_ifs
    · exact ⟨h.stored, h.kept, h.counts⟩
    · exact h
  · exact h

theorem length_quad (info : GlyphPosition) (glyph : Glyph) : (quad info glyph).length = 4 :=
  length_ofFn

theorem Drawn.length (h : Drawn font before passed p) :
    p.vertices.length = before.length + 4 * (font.visible passed).length := by
  obtain ⟨added, hvertices, hplaces⟩ := h.kept
  have hlength := congrArg List.length hplaces
  rw [List.length_map, List.length_flatMap] at hlength
  simp only [length_quad, map_const', sum_replicate, smul_eq_mul] at hlength
  rw [hvertices, length_append, hlength, Nat.mul_comm]

/-- **A glyph more** is drawn. -/
theorem Drawn.draw (h : Drawn font before passed p) {info : GlyphPosition} {glyph : Glyph}
    (hlookup : font.glyphs.lookup info.glyphIndex = some glyph) :
    Drawn font before (passed ++ [info]) (p.draw info glyph) := by
  have hstored : ∀ info' ∈ passed ++ [info],
      (font.glyphs.lookup info'.glyphIndex).isSome = true := by
    intro info' hmem
    rcases mem_append.mp hmem with hmem | hmem
    · exact h.stored info' hmem
    · rw [mem_singleton.mp hmem, hlookup]
      rfl
  cases htexture : glyph.texture with
  | none =>
    have hvisible : font.visible (passed ++ [info]) = font.visible passed := by
      rw [visible, filterMap_append]
      simp [visible, hlookup, htexture]
    rw [Progress.draw, htexture]
    refine ⟨hstored, ?_, ?_⟩
    · rw [hvisible]
      exact h.kept
    · rw [hvisible]
      exact h.counts
  | some texture =>
    have hvisible : font.visible (passed ++ [info]) =
        font.visible passed ++ [(info, glyph)] := by
      rw [visible, filterMap_append]
      simp [visible, hlookup, htexture]
    have hsize : (p.vertices ++ (quad info glyph).map fun place =>
        (⟨place, p.curcolor⟩ : GlyphVertex χ)).length =
        before.length + 4 * (font.visible passed).length + 4 := by
      rw [length_append, List.length_map, length_quad, h.length]
    rw [Progress.draw, htexture]
    dsimp only
    rw [hsize]
    refine ⟨hstored, ?_, ?_⟩
    · obtain ⟨added, hvertices, hplaces⟩ := h.kept
      refine ⟨added ++ (quad info glyph).map fun place => ⟨place, p.curcolor⟩, ?_, ?_⟩
      · rw [hvertices, append_assoc]
      · rw [map_append, hplaces, hvisible, flatMap_append, map_map]
        simp [Function.comp_def]
    · rw [hvisible]
      exact h.counts.countQuad htexture

/-- How a pass ends, over glyphs behind those that were passed: with all of them drawn, or with
a font that has grown. -/
theorem generatePass_spec {glyphpositions : List GlyphPosition} :
    ∀ {i : Nat} {passed : List GlyphPosition} {p : Progress χ} {font : Font} {pass : Pass χ},
      Drawn font before passed p →
      generatePass env fuel text i glyphpositions p font = some (pass, font') →
      (∃ n, Grown n font font' ∧ (pass = .restart → n ≠ 0)) ∧
        ∀ p', pass = .done p' → Drawn font' before (passed ++ glyphpositions) p' := by
  induction glyphpositions with
  | nil =>
    intro i passed p font pass hdrawn h
    cases h
    refine ⟨⟨0, .refl _, fun h => by cases h⟩, fun p' h => ?_⟩
    cases h
    rw [append_nil]
    exact hdrawn
  | cons info glyphpositions ih =>
    intro i passed p font pass hdrawn h
    rw [generatePass] at h
    cases hfind : findGlyph env fuel info.glyphIndex font with
    | none => rw [hfind] at h; cases h
    | some found =>
      obtain ⟨outcome, middle⟩ := found
      obtain ⟨n, hgrown, hextends, hlookup⟩ := findGlyph_spec hfind
      rw [hfind] at h
      cases outcome with
      | error e =>
        cases h
        exact ⟨⟨n, hgrown, fun h => by cases h⟩, fun p' h => by cases h⟩
      | ok glyph =>
        dsimp only at h
        split_ifs at h with hchanged
        · cases h
          exact ⟨⟨n, hgrown, fun _ hn => hchanged (hgrown.id_eq_iff.mpr hn)⟩,
            fun p' h => by cases h⟩
        · have hn : n = 0 := hgrown.id_eq_iff.mp (not_not.mp hchanged)
          have hnext := ((hdrawn.extends (hextends hn)).recolor text i).draw
            (hlookup glyph rfl)
          obtain ⟨⟨m, hgrown', hrestart⟩, hdone⟩ := ih hnext h
          refine ⟨⟨n + m, hgrown.trans hgrown', fun hpass => ?_⟩, fun p' hp' => ?_⟩
          · have := hrestart hpass
            omega
          · rw [← singleton_append, ← append_assoc]
            exact hdone p' hp'

/-- **Where the vertices are returned**, the commands draw them once each. -/
theorem generateLoop_partitions {restarts : Nat} {commands : List DrawCommand}
    {after : List (GlyphVertex χ)} : ∀ {font : Font},
      generateLoop env fuel text before restarts font = some (.ok (commands, after), font') →
      Partitions font' text.glyphpositions before after commands := by
  induction restarts with
  | zero => exact fun h => by cases h
  | succ restarts ih =>
    intro font h
    rw [generateLoop] at h
    cases hpass : generatePass env fuel text 0 text.glyphpositions
        ⟨[], before, 0, text.constantcolor⟩ font with
    | none => rw [hpass] at h; cases h
    | some result =>
      obtain ⟨pass, middle⟩ := result
      obtain ⟨-, hdone⟩ := generatePass_spec (.start font before text.constantcolor) hpass
      rw [hpass] at h
      cases pass with
      | threw e => cases h
      | restart => exact ih h
      | done p =>
        cases h
        obtain ⟨-, hkept, hcounts⟩ := hdone p rfl
        exact ⟨hkept, p.commands, (mergeSort_perm _ _).symm, hcounts⟩

/-! ### It returns -/

theorem findGlyph_returns (hfuel : 2 ^ 14 + 2 ≤ fuel) (g : GlyphIndex) (font : Font) :
    (findGlyph env fuel g font).isSome = true := by
  rw [findGlyph]
  cases font.glyphs.lookup g with
  | some glyph => rfl
  | none => exact addGlyph_returns g font (by omega) (by omega)

theorem generatePass_returns (hfuel : 2 ^ 14 + 2 ≤ fuel) {glyphpositions : List GlyphPosition} :
    ∀ {i : Nat} {p : Progress χ} {font : Font},
      (generatePass env fuel text i glyphpositions p font).isSome = true := by
  induction glyphpositions with
  | nil => exact rfl
  | cons info glyphpositions ih =>
    intro i p font
    obtain ⟨⟨outcome, middle⟩, hfind⟩ :=
      Option.isSome_iff_exists.mp (findGlyph_returns hfuel info.glyphIndex font)
    rw [generatePass, hfind]
    cases outcome with
    | error e => rfl
    | ok glyph =>
      dsimp only
      split_ifs
      · rfl
      · exact ih

theorem generateLoop_returns (hfuel : 2 ^ 14 + 2 ≤ fuel) {restarts : Nat} : ∀ {font : Font},
    2 ^ 14 + 1 ≤ restarts + font.textureSize.extent → 1 ≤ restarts →
      (generateLoop env fuel text before restarts font).isSome = true := by
  induction restarts with
  | zero => exact fun _ h => absurd h (by norm_num)
  | succ restarts ih =>
    intro font hleft _
    obtain ⟨⟨pass, middle⟩, hpass⟩ := Option.isSome_iff_exists.mp
      (@generatePass_returns κ χ env fuel text hfuel text.glyphpositions 0
        ⟨[], before, 0, text.constantcolor⟩ font)
    obtain ⟨⟨n, hgrown, hrestart⟩, -⟩ :=
      generatePass_spec (.start font before text.constantcolor) hpass
    rw [generateLoop, hpass]
    cases pass with
    | threw e | done p => rfl
    | restart =>
      have hn := hrestart rfl
      have hextent := hgrown.extent
      have hbound := hgrown.bounded.resolve_left hn
      exact ih (by omega) (by omega)

/-! ### More fuel changes nothing -/

theorem findGlyph_mono {fuel' : Nat} (hle : fuel ≤ fuel') {g : GlyphIndex}
    {r : Except FontError Glyph × Font} (h : findGlyph env fuel g font = some r) :
    findGlyph env fuel' g font = some r := by
  rw [findGlyph] at h ⊢
  cases hlookup : font.glyphs.lookup g with
  | some glyph =>
    rw [hlookup] at h
    exact h
  | none =>
    rw [hlookup] at h
    exact addGlyph_mono hle h

theorem generatePass_mono {fuel' : Nat} (hle : fuel ≤ fuel')
    {glyphpositions : List GlyphPosition} :
    ∀ {i : Nat} {p : Progress χ} {font : Font} {r : Pass χ × Font},
      generatePass env fuel text i glyphpositions p font = some r →
      generatePass env fuel' text i glyphpositions p font = some r := by
  induction glyphpositions with
  | nil => exact fun h => h
  | cons info glyphpositions ih =>
    intro i p font r h
    rw [generatePass] at h ⊢
    cases hfind : findGlyph env fuel info.glyphIndex font with
    | none => rw [hfind] at h; cases h
    | some found =>
      obtain ⟨outcome, middle⟩ := found
      rw [hfind] at h
      rw [findGlyph_mono hle hfind]
      cases outcome with
      | error e => exact h
      | ok glyph =>
        dsimp only at h ⊢
        split_ifs at h ⊢
        · exact h
        · exact ih h

theorem generateLoop_mono {fuel' : Nat} (hle : fuel ≤ fuel') {restarts : Nat} :
    ∀ {restarts' : Nat} {font : Font}
      {r : Except FontError (List DrawCommand × List (GlyphVertex χ)) × Font},
      restarts ≤ restarts' → generateLoop env fuel text before restarts font = some r →
      generateLoop env fuel' text before restarts' font = some r := by
  induction restarts with
  | zero => exact fun _ h => by cases h
  | succ restarts ih =>
    intro restarts' font r hrestarts h
    obtain ⟨restarts', rfl⟩ : ∃ n, restarts' = n + 1 := ⟨restarts' - 1, by omega⟩
    rw [generateLoop] at h ⊢
    cases hpass : generatePass env fuel text 0 text.glyphpositions
        ⟨[], before, 0, text.constantcolor⟩ font with
    | none => rw [hpass] at h; cases h
    | some result =>
      obtain ⟨pass, middle⟩ := result
      rw [hpass] at h
      rw [generatePass_mono hle hpass]
      cases pass with
      | threw e | done p => exact h
      | restart => exact ih (by omega) h

end Font

end Lhatove.Graphics
