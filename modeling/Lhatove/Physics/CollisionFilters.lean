import Mathlib.Algebra.Order.Floor.Ring
import Mathlib.Data.Finset.Dedup
import Mathlib.Data.Finset.Filter
import Mathlib.Data.Rat.Floor
import Mathlib.Logic.Function.Basic
import Mathlib.Order.Interval.Finset.Nat
import Mathlib.Tactic.IntervalCases
import Mathlib.Tactic.Linarith

/-!
# Collision filters

The category and the mask of a shape are sets of indices for who calls, and words of 16 bits for
Box2D; the word of a mask has the categories that are not masked.

- `Filter`, `Shape`, `shouldCollide`: the words and what is decided by them;
- `FilterCall`: the calls that change them;
- `filters_answered`: what is answered and decided after any calls.
-/

namespace Lhatove.Physics

/-- `b2Filter`; its group index is an `int16`. -/
structure Filter where
  categoryBits : BitVec 16 := 0x0001
  maskBits : BitVec 16 := 0xFFFF
  groupIndex : BitVec 16 := 0
  deriving DecidableEq

/-- A fixture, and the shape that its user data point to. -/
structure Fixture where
  filter : Filter := {}
  pointer : Option Nat
  deriving DecidableEq

/-- A `Shape`, which has no fixture after it was destroyed. -/
structure Shape where
  fixture : Option Fixture
  deriving DecidableEq

namespace Shape

/-- A method that reads the filter of the fixture. -/
def readFilter {α : Type} (s : Shape) (f : Filter → α) : Except String α :=
  match s.fixture with
  | none => .error "Shape must be active in the physics World to use this method."
  | some fixture => .ok (f fixture.filter)

/-- A method that sets the filter of the fixture. -/
def writeFilter (s : Shape) (f : Filter → Filter) : Except String Shape :=
  match s.fixture with
  | none => .error "Shape must be active in the physics World to use this method."
  | some fixture => .ok ⟨some { fixture with filter := f fixture.filter }⟩

def setFilterData (v : Int × Int × Int) (s : Shape) : Except String Shape :=
  s.writeFilter fun _ => ⟨.ofInt 16 v.1, .ofInt 16 v.2.1, .ofInt 16 v.2.2⟩

def getFilterData (s : Shape) : Except String (Int × Int × Int) :=
  s.readFilter fun f => (f.categoryBits.toNat, f.maskBits.toNat, f.groupIndex.toInt)

def setCategory (bits : BitVec 16) (s : Shape) : Except String Shape :=
  s.writeFilter fun f => { f with categoryBits := bits }

def setMask (bits : BitVec 16) (s : Shape) : Except String Shape :=
  s.writeFilter fun f => { f with maskBits := ~~~bits }

def setGroupIndex (index : Int) (s : Shape) : Except String Shape :=
  s.writeFilter fun f => { f with groupIndex := .ofInt 16 index }

def getGroupIndex (s : Shape) : Except String Int := s.readFilter fun f => f.groupIndex.toInt

def getCategory (s : Shape) : Except String (BitVec 16) := s.readFilter fun f => f.categoryBits

def getMask (s : Shape) : Except String (BitVec 16) := s.readFilter fun f => ~~~f.maskBits

end Shape

/-- `World::ShouldCollide`; `listener` is the user's filter. -/
def shouldCollide (listener : Option (Nat → Nat → Bool)) (fixtureA fixtureB : Fixture) :
    Except String Bool :=
  let filterA := fixtureA.filter
  let filterB := fixtureB.filter
  if filterA.groupIndex ≠ 0 ∧ filterA.groupIndex = filterB.groupIndex then
    .ok (decide (0 < filterA.groupIndex.toInt))
  else if filterA.maskBits &&& filterB.categoryBits = 0 ∨
      filterA.categoryBits &&& filterB.maskBits = 0 then
    .ok false
  else
    match fixtureA.pointer, fixtureB.pointer with
    | some a, some b => .ok (match listener with
      | some shouldCollide => shouldCollide a b
      | none => true)
    | _, _ => .error "A Shape has escaped Memoizer!"

/-! ## Lists of indices -/

/-- The loop of `bitsOf`. -/
def bitsLoop : List ℚ → BitVec 16 → Except String (BitVec 16)
  | [], b => .ok b
  | index :: rest, b =>
    if index < 1 ∨ 16 < index then .error "Values must be in range 1-16."
    else bitsLoop rest (b ||| BitVec.twoPow 16 (⌊index⌋.toNat - 1))

/-- `bitsOf`, which writes `out` whether there are indices or not. -/
def bitsOf (args : List ℚ) (_out : BitVec 16) : Except String (BitVec 16) := bitsLoop args 0

def bitList (bits : BitVec 16) : List Nat :=
  ((List.range 16).filter fun i => bits.getLsbD i).map (· + 1)

def lh_Shape_setCategory (args : List ℚ) (s : Shape) : Except String Shape := do
  let bits ← bitsOf args (if args ≠ [] then 0 else 1)
  s.setCategory bits

def lh_Shape_setMask (args : List ℚ) (s : Shape) : Except String Shape := do
  let bits ← bitsOf args 0
  s.setMask bits

def lh_Shape_getCategory (s : Shape) : Except String (List Nat) := bitList <$> s.getCategory

def lh_Shape_getMask (s : Shape) : Except String (List Nat) := bitList <$> s.getMask

/-! ## Calls -/

inductive FilterCall
  | setCategory (args : List ℚ)
  | setMask (args : List ℚ)
  | setGroupIndex (index : Int)
  | setFilterData (v : Int × Int × Int)

def FilterCall.run : FilterCall → Shape → Except String Shape
  | .setCategory args => lh_Shape_setCategory args
  | .setMask args => lh_Shape_setMask args
  | .setGroupIndex index => Shape.setGroupIndex index
  | .setFilterData v => Shape.setFilterData v

/-- Shapes by their addresses. -/
abbrev Shapes := Nat → Shape

/-- A call on the shape at an address, which may raise. -/
def Shapes.call (shapes : Shapes) (c : Nat × FilterCall) : Shapes :=
  match c.2.run (shapes c.1) with
  | .ok s => Function.update shapes c.1 s
  | .error _ => shapes

/-- Shapes as they were made: some are not in the world any more. -/
def Shapes.made (active : Nat → Bool) : Shapes := fun address =>
  ⟨if active address then some { pointer := some address } else none⟩

/-! ## What was given -/

/-- The indices that numbers stand for. -/
def indicesOf (args : List ℚ) : Finset Nat := (args.map fun index => ⌊index⌋.toNat).toFinset

/-- The indices of the bits of a number. -/
def indicesOfBits (v : Int) : Finset Nat :=
  (Finset.Icc 1 16).filter fun i => v / 2 ^ (i - 1) % 2 = 1

/-- What was last given for a shape; an empty category gives none. -/
structure Given where
  categories : Option (Finset Nat) := some {1}
  masked : Finset Nat := ∅

def Given.next (g : Given) : FilterCall → Given
  | .setCategory args =>
    if ∀ index ∈ args, 1 ≤ index ∧ index ≤ 16 then
      { g with categories := if args = [] then none else some (indicesOf args) }
    else g
  | .setMask args =>
    if ∀ index ∈ args, 1 ≤ index ∧ index ≤ 16 then { g with masked := indicesOf args } else g
  | .setGroupIndex _ => g
  | .setFilterData v => ⟨some (indicesOfBits v.1), indicesOfBits (-1 - v.2.1)⟩

/-- What the calls on a shape give it. -/
def given (address : Nat) (calls : List (Nat × FilterCall)) : Given :=
  (calls.filter fun c => c.1 = address).foldl (fun g c => g.next c.2) {}

/-- A list has exactly the indices of a set, in order. -/
def Lists (indices : List Nat) (given : Finset Nat) : Prop :=
  indices.Pairwise (· < ·) ∧ ∀ i, i ∈ indices ↔ i ∈ given

/-- The bits of a word are those of a set of indices. -/
def Has (bits : BitVec 16) (indices : Finset Nat) : Prop :=
  ∀ i, i ∈ indices ↔ 1 ≤ i ∧ bits.getLsbD (i - 1) = true

variable {bits : BitVec 16} {args : List ℚ}

theorem mem_bitList {i : Nat} : i ∈ bitList bits ↔ 1 ≤ i ∧ bits.getLsbD (i - 1) = true := by
  simp only [bitList, List.mem_map, List.mem_filter, List.mem_range]
  constructor
  · rintro ⟨j, ⟨-, hj⟩, rfl⟩
    exact ⟨Nat.le_add_left 1 j, hj⟩
  · rintro ⟨hpos, hi⟩
    exact ⟨i - 1, ⟨BitVec.lt_of_getLsbD hi, hi⟩, Nat.sub_add_cancel hpos⟩

theorem Has.lists {indices : Finset Nat} (h : Has bits indices) : Lists (bitList bits) indices := by
  refine ⟨?_, fun i => mem_bitList.trans (h i).symm⟩
  have hrange : (List.range 16).Pairwise (· < ·) := List.pairwise_lt_range
  exact (hrange.filter _).map _ fun _ _ hlt => Nat.succ_lt_succ hlt

theorem floor_bounds {index : ℚ} (hlow : 1 ≤ index) (hhigh : index ≤ 16) :
    1 ≤ ⌊index⌋ ∧ ⌊index⌋ ≤ 16 := by
  refine ⟨Int.le_floor.mpr (by exact_mod_cast hlow), ?_⟩
  have hle := (Int.floor_le index).trans hhigh
  exact_mod_cast hle

theorem bitsLoop_ok (h : ∀ index ∈ args, 1 ≤ index ∧ index ≤ 16) (b : BitVec 16) :
    ∃ bits, bitsLoop args b = .ok bits ∧ ∀ i, bits.getLsbD i = true ↔
      b.getLsbD i = true ∨ ∃ index ∈ args, ⌊index⌋.toNat = i + 1 := by
  induction args generalizing b with
  | nil => exact ⟨b, rfl, fun i => by simp⟩
  | cons index rest ih =>
    obtain ⟨hlow, hhigh⟩ := h index List.mem_cons_self
    obtain ⟨bits, hbits, hmem⟩ := ih (fun x hx => h x (List.mem_cons_of_mem index hx))
      (b ||| BitVec.twoPow 16 (⌊index⌋.toNat - 1))
    have hfloor := floor_bounds hlow hhigh
    refine ⟨bits, ?_, fun i => ?_⟩
    · rw [bitsLoop, if_neg (by rintro (hlt | hlt) <;> linarith), hbits]
    · rw [hmem, BitVec.getLsbD_or, Bool.or_eq_true, BitVec.getLsbD_twoPow, or_assoc]
      simp only [Bool.and_eq_true, decide_eq_true_eq, List.mem_cons, exists_eq_or_imp]
      refine or_congr_right (or_congr_left ?_)
      omega

theorem bitsLoop_error (h : ¬ ∀ index ∈ args, 1 ≤ index ∧ index ≤ 16) (b : BitVec 16) :
    bitsLoop args b = .error "Values must be in range 1-16." := by
  induction args generalizing b with
  | nil => exact absurd (fun _ hmem => absurd hmem List.not_mem_nil) h
  | cons index rest ih =>
    rw [bitsLoop]
    split
    · rfl
    next hin =>
      rw [not_or, not_lt, not_lt] at hin
      exact ih (fun hrest => h (List.forall_mem_cons.mpr ⟨hin, hrest⟩)) _

theorem bitsOf_ok (h : ∀ index ∈ args, 1 ≤ index ∧ index ≤ 16) (out : BitVec 16) :
    ∃ bits, bitsOf args out = .ok bits ∧ Has bits (indicesOf args) := by
  obtain ⟨bits, hbits, hmem⟩ := bitsLoop_ok h 0
  refine ⟨bits, hbits, fun i => ?_⟩
  simp only [indicesOf, List.mem_toFinset, List.mem_map]
  constructor
  · rintro ⟨index, hindex, rfl⟩
    have hfloor := floor_bounds (h index hindex).1 (h index hindex).2
    exact ⟨by omega, (hmem _).mpr (.inr ⟨index, hindex, by omega⟩)⟩
  · rintro ⟨hpos, hi⟩
    obtain hzero | ⟨index, hindex, hfloor⟩ := (hmem (i - 1)).mp hi
    · exact absurd hzero (by simp)
    · exact ⟨index, hindex, by omega⟩

theorem has_ofInt (v : Int) : Has (.ofInt 16 v) (indicesOfBits v) := by
  intro i
  rw [indicesOfBits, Finset.mem_filter, Finset.mem_Icc, and_assoc]
  refine and_congr_right fun hpos => ?_
  by_cases hle : i ≤ 16
  · rw [and_iff_right hle, BitVec.getLsbD, BitVec.toNat_ofInt, Nat.testBit_eq_decide_div_mod_eq,
      decide_eq_true_eq]
    interval_cases i <;> omega
  · rw [BitVec.getLsbD_of_ge _ _ (by omega)]
    simp [hle]

theorem Has.not {indices : Finset Nat} (h : Has bits indices) {others : Finset Nat}
    (hothers : ∀ i, i ∈ others ↔ (1 ≤ i ∧ i ≤ 16) ∧ i ∉ indices) : Has (~~~bits) others := by
  intro i
  rw [hothers, h, BitVec.getLsbD_not, Bool.and_eq_true, Bool.not_eq_true', decide_eq_true_eq,
    ← Bool.not_eq_true]
  constructor
  · rintro ⟨⟨hpos, hle⟩, hnot⟩
    exact ⟨hpos, by omega, fun hbit => hnot ⟨hpos, hbit⟩⟩
  · rintro ⟨hpos, hlt, hnot⟩
    exact ⟨⟨hpos, by omega⟩, fun hboth => hnot hboth.2⟩

theorem has_not_ofInt (v : Int) : Has (~~~(.ofInt 16 v)) (indicesOfBits (-1 - v)) := by
  refine (has_ofInt v).not fun i => ?_
  rw [indicesOfBits, indicesOfBits, Finset.mem_filter, Finset.mem_filter, Finset.mem_Icc]
  refine and_congr_right fun hin => ?_
  rw [not_and, forall_prop_of_true hin]
  obtain ⟨hpos, hle⟩ := hin
  interval_cases i <;> omega

/-! ## Runs -/

/-- An active shape has the words of what was given. -/
structure Follows (address : Nat) (g : Given) (fixture : Fixture) : Prop where
  pointer : fixture.pointer = some address
  category : ∀ indices, g.categories = some indices → Has fixture.filter.categoryBits indices
  mask : Has (~~~fixture.filter.maskBits) g.masked

variable {address : Nat} {g : Given} {fixture : Fixture}

/-- **One call**, on the shape that it is for. -/
theorem Follows.run (h : Follows address g fixture) (call : FilterCall) :
    (∃ fixture', call.run ⟨some fixture⟩ = .ok ⟨some fixture'⟩ ∧
      Follows address (g.next call) fixture') ∨
    (∃ message, call.run ⟨some fixture⟩ = .error message) ∧ g.next call = g := by
  cases call with
  | setCategory args =>
    by_cases hin : ∀ index ∈ args, 1 ≤ index ∧ index ≤ 16
    · obtain ⟨bits, hbits, hhas⟩ := bitsOf_ok hin (if args ≠ [] then 0 else 1)
      refine .inl ⟨{ fixture with filter.categoryBits := bits }, ?_, ?_⟩
      · rw [FilterCall.run, lh_Shape_setCategory, hbits]
        rfl
      · rw [Given.next, if_pos hin]
        refine ⟨h.pointer, ?_, h.mask⟩
        intro indices hindices
        dsimp only at hindices
        split_ifs at hindices
        exact Option.some.inj hindices ▸ hhas
    · refine .inr ⟨⟨"Values must be in range 1-16.", ?_⟩, if_neg hin⟩
      rw [FilterCall.run, lh_Shape_setCategory, bitsOf, bitsLoop_error hin]
      rfl
  | setMask args =>
    by_cases hin : ∀ index ∈ args, 1 ≤ index ∧ index ≤ 16
    · obtain ⟨bits, hbits, hhas⟩ := bitsOf_ok hin 0
      refine .inl ⟨{ fixture with filter.maskBits := ~~~bits }, ?_, ?_⟩
      · rw [FilterCall.run, lh_Shape_setMask, hbits]
        rfl
      · rw [Given.next, if_pos hin]
        refine ⟨h.pointer, h.category, ?_⟩
        dsimp only
        rwa [BitVec.not_not]
    · refine .inr ⟨⟨"Values must be in range 1-16.", ?_⟩, if_neg hin⟩
      rw [FilterCall.run, lh_Shape_setMask, bitsOf, bitsLoop_error hin]
      rfl
  | setGroupIndex index => exact .inl ⟨_, rfl, h.pointer, h.category, h.mask⟩
  | setFilterData v =>
    refine .inl ⟨_, rfl, h.pointer, ?_, has_not_ofInt v.2.1⟩
    intro indices hindices
    exact Option.some.inj hindices ▸ has_ofInt v.1

theorem made_follows {active : Nat → Bool} (h : active address = true) :
    ∃ fixture, Shapes.made active address = ⟨some fixture⟩ ∧ Follows address {} fixture := by
  refine ⟨_, by rw [Shapes.made, if_pos h], rfl, ?_, ?_⟩
  · intro indices hindices
    obtain rfl := Option.some.inj hindices
    intro i
    change i ∈ ({1} : Finset Nat) ↔ 1 ≤ i ∧ (1#16).getLsbD (i - 1) = true
    rw [Finset.mem_singleton, BitVec.getLsbD_one]
    simp
    omega
  · intro i
    change i ∈ (∅ : Finset Nat) ↔ 1 ≤ i ∧ (~~~0xFFFF#16).getLsbD (i - 1) = true
    rw [show ~~~0xFFFF#16 = 0#16 by decide]
    simp

/-- **Any calls**: each active shape follows what was given for it. -/
theorem run_follows {active : Nat → Bool} (h : active address = true)
    (calls : List (Nat × FilterCall)) :
    ∃ fixture, calls.foldl Shapes.call (Shapes.made active) address = ⟨some fixture⟩ ∧
      Follows address (given address calls) fixture := by
  induction calls using List.reverseRecOn with
  | nil => exact made_follows h
  | append_singleton calls c ih =>
    obtain ⟨fixture, hfixture, hfollows⟩ := ih
    rw [List.foldl_append, List.foldl_cons, List.foldl_nil, given, List.filter_append,
      List.foldl_append]
    rw [given] at hfollows
    generalize calls.foldl Shapes.call (Shapes.made active) = shapes at hfixture ⊢
    by_cases heq : c.1 = address
    · rw [List.filter_singleton, decide_eq_true heq, cond_true, List.foldl_cons, List.foldl_nil,
        Shapes.call, heq, hfixture]
      obtain ⟨fixture', hrun, hfollows'⟩ | ⟨⟨message, hrun⟩, hsame⟩ := hfollows.run c.2
      · rw [hrun]
        exact ⟨fixture', Function.update_self _ _ _, hfollows'⟩
      · rw [hrun, hsame]
        exact ⟨fixture, hfixture, hfollows⟩
    · rw [List.filter_singleton, decide_eq_false heq, cond_false, List.foldl_nil, Shapes.call]
      refine ⟨fixture, ?_, hfollows⟩
      cases c.2.run (shapes c.1) with
      | ok s => exact (Function.update_of_ne (Ne.symm heq) _ _).trans hfixture
      | error _ => exact hfixture

/-! ## What is answered and decided -/

/-- What is answered of a shape is what was given, and can be written back. -/
structure Answered (s : Shape) (g : Given) : Prop where
  category : ∀ indices, g.categories = some indices →
    ∃ answer, lh_Shape_getCategory s = .ok answer ∧ Lists answer indices
  mask : ∃ answer, lh_Shape_getMask s = .ok answer ∧ Lists answer g.masked
  writtenBack : ∃ v, s.getFilterData = .ok v ∧ s.setFilterData v = .ok s

/-- Fixtures of one group collide if it is positive; others if each has a category that the other
does not mask. -/
def Collide (x y : Filter) : Prop :=
  if x.groupIndex ≠ 0 ∧ x.groupIndex = y.groupIndex then 0 < x.groupIndex.toInt
  else (∃ i ∈ bitList x.categoryBits, i ∉ bitList (~~~y.maskBits)) ∧
    ∃ i ∈ bitList y.categoryBits, i ∉ bitList (~~~x.maskBits)

theorem and_ne_zero_iff {x y : BitVec 16} :
    x &&& y ≠ 0 ↔ ∃ i ∈ bitList x, i ∉ bitList (~~~y) := by
  simp only [mem_bitList]
  constructor
  · intro hne
    by_contra! hnone
    refine hne (BitVec.eq_of_getLsbD_eq fun i hi => ?_)
    change (x &&& y).getLsbD i = (0#16).getLsbD i
    rw [BitVec.getLsbD_and, BitVec.getLsbD_zero, ← Bool.not_eq_true, Bool.and_eq_true]
    intro hboth
    obtain ⟨-, hbit⟩ := hnone (i + 1) ⟨Nat.le_add_left 1 i, by simpa using hboth.1⟩
    rw [Nat.add_sub_cancel, BitVec.getLsbD_not] at hbit
    simp_all
  · rintro ⟨i, ⟨hpos, hx⟩, hy⟩ hzero
    have hlt := BitVec.lt_of_getLsbD hx
    have hand : (x &&& y).getLsbD (i - 1) = y.getLsbD (i - 1) := by
      rw [BitVec.getLsbD_and, hx, Bool.true_and]
    refine hy ⟨hpos, ?_⟩
    rw [BitVec.getLsbD_not, ← hand, hzero]
    simpa using hlt

theorem collide_comm (x y : Filter) : Collide x y ↔ Collide y x := by
  unfold Collide
  by_cases heq : x.groupIndex = y.groupIndex
  · simp only [heq, and_comm]
  · rw [if_neg (fun h => heq h.2), if_neg (fun h => heq h.2.symm), and_comm]

/-- **What is decided** without a user's filter. -/
theorem shouldCollide_eq {x y : Fixture} {a b : Nat} (hx : x.pointer = some a)
    (hy : y.pointer = some b) :
    ∃ answer, shouldCollide none x y = .ok answer ∧
      (answer = true ↔ Collide x.filter y.filter) := by
  rw [shouldCollide, Collide]
  dsimp only
  split_ifs with hgroup hbits
  · exact ⟨_, rfl, decide_eq_true_iff⟩
  · refine ⟨false, rfl, iff_of_false Bool.false_ne_true ?_⟩
    rw [← and_ne_zero_iff, ← and_ne_zero_iff, BitVec.and_comm y.filter.categoryBits]
    tauto
  · rw [not_or] at hbits
    refine ⟨true, by rw [hx, hy], iff_of_true rfl ?_⟩
    rw [← and_ne_zero_iff, ← and_ne_zero_iff, BitVec.and_comm y.filter.categoryBits]
    exact ⟨hbits.2, hbits.1⟩

theorem Follows.answered (h : Follows address g fixture) : Answered ⟨some fixture⟩ g where
  category indices hindices := ⟨_, rfl, (h.category indices hindices).lists⟩
  mask := ⟨_, rfl, h.mask.lists⟩
  writtenBack := by
    refine ⟨_, rfl, ?_⟩
    simp [Shape.setFilterData, Shape.writeFilter]

/-- **Filters are those set.** -/
theorem filters_answered {active : Nat → Bool} (calls : List (Nat × FilterCall)) {a b : Nat}
    (ha : active a = true) (hb : active b = true) :
    Answered (calls.foldl Shapes.call (Shapes.made active) a) (given a calls) ∧
    ∃ x y, calls.foldl Shapes.call (Shapes.made active) a = ⟨some x⟩ ∧
      calls.foldl Shapes.call (Shapes.made active) b = ⟨some y⟩ ∧
      shouldCollide none x y = shouldCollide none y x ∧
      ∃ answer, shouldCollide none x y = .ok answer ∧
        (answer = true ↔ Collide x.filter y.filter) := by
  obtain ⟨x, hx, hfollows⟩ := run_follows ha calls
  obtain ⟨y, hy, hfollows'⟩ := run_follows hb calls
  obtain ⟨answer, hanswer, hiff⟩ := shouldCollide_eq hfollows.pointer hfollows'.pointer
  obtain ⟨answer', hanswer', hiff'⟩ := shouldCollide_eq hfollows'.pointer hfollows.pointer
  refine ⟨hx ▸ hfollows.answered, x, y, hx, hy, ?_, answer, hanswer, hiff⟩
  rw [hanswer, hanswer', Bool.eq_iff_iff.mpr (hiff.trans ((collide_comm _ _).trans hiff'.symm))]

theorem filters_answered_masked : ((fun _ : Nat => true) 0 = true ∧ (fun _ : Nat => true) 1 = true) ∧
    Answered ([(0, .setMask [3])].foldl Shapes.call (Shapes.made fun _ => true) 0)
      (given 0 [(0, .setMask [3])]) :=
  ⟨⟨rfl, rfl⟩, (@filters_answered (fun _ => true) _ _ 1 rfl rfl).1⟩

/-- A shape of two categories collides with one that masks the first of them. -/
theorem masked_collides :
    let shapes := [(0, .setMask [1]), (1, .setCategory [1, 2])].foldl Shapes.call
      (Shapes.made fun _ => true)
    lh_Shape_getMask (shapes 0) = .ok [1] ∧ lh_Shape_getCategory (shapes 1) = .ok [1, 2] ∧
    ∃ x y, (shapes 0).fixture = some x ∧ (shapes 1).fixture = some y ∧
      x.filter.groupIndex = 0 ∧ shouldCollide none x y = .ok true := by
  refine ⟨by decide, by decide, _, _, rfl, rfl, by decide, by decide⟩

end Lhatove.Physics
