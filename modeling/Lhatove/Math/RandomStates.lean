import Lhatove.Math.RandomGenerator
import Mathlib.Data.List.TakeWhile

/-!
# States of the random generator

- `strtoull_getState`: the state that is printed is read with all its 64 bits;
- `setState_getState`: what a generator that is given the state of another one
  draws, against what that one draws;
- `rngState_ne_zero`: the state is never zero, unless it is set to zero;
- `rand_bijective`: after any number of draws, no two states draw one number.
-/

namespace Lhatove.Math

open Double

/-! ## Hexadecimal -/

theorem hexValue_digitChar : ∀ d < 16, hexValue (Nat.digitChar d) = some d := by decide

theorem isHex_digitChar {d : Nat} (h : d < 16) : isHex (Nat.digitChar d) = true := by
  rw [isHex, hexValue_digitChar d h]
  rfl

theorem isHex_toDigits (n : Nat) : ∀ c ∈ Nat.toDigits 16 n, isHex c = true := by
  induction n using Nat.strongRecOn with
  | ind n ih =>
    intro c hc
    by_cases hn : n < 16
    · rw [Nat.toDigits_of_lt_base hn, List.mem_singleton] at hc
      exact hc ▸ isHex_digitChar hn
    · rw [Nat.toDigits_of_base_le (by decide) (not_lt.mp hn)] at hc
      rcases List.mem_append.mp hc with hc | hc
      · exact ih (n / 16) (by omega) c hc
      · exact List.mem_singleton.mp hc ▸ isHex_digitChar (Nat.mod_lt _ (by decide))

theorem hexNumber_concat (digits : List Char) {d : Nat} (h : d < 16) :
    hexNumber (digits ++ [Nat.digitChar d]) = 16 * hexNumber digits + d := by
  rw [hexNumber, List.foldl_append]
  show 16 * hexNumber digits + (hexValue (Nat.digitChar d)).getD 0 = _
  rw [hexValue_digitChar d h]
  rfl

theorem hexNumber_toDigits (n : Nat) : hexNumber (Nat.toDigits 16 n) = n := by
  induction n using Nat.strongRecOn with
  | ind n ih =>
    by_cases hn : n < 16
    · rw [Nat.toDigits_of_lt_base hn]
      exact (hexNumber_concat [] hn).trans (Nat.zero_add n)
    · rw [Nat.toDigits_of_base_le (by decide) (not_lt.mp hn),
        hexNumber_concat _ (Nat.mod_lt _ (by decide)), ih (n / 16) (by omega), Nat.div_add_mod]

theorem hexNumber_zeros (k : Nat) (digits : List Char) :
    hexNumber (List.replicate k '0' ++ digits) = hexNumber digits := by
  induction k with
  | zero => rfl
  | succ k ih => exact ih

/-! ## Printing and reading -/

section States

variable {F : Type} (g : RandomGenerator F)

/-- The digits that `getState` prints. -/
def stateDigits : List Char := (Nat.toDigits 16 g.rngState.toNat).leftpad 16 '0'

theorem stateDigits_isHex : ∀ c ∈ stateDigits g, isHex c = true := by
  intro c hc
  rcases List.mem_append.mp hc with hc | hc
  · exact List.eq_of_mem_replicate hc ▸ by decide
  · exact isHex_toDigits _ c hc

theorem stateDigits_ne_nil : stateDigits g ≠ [] := by
  intro hnil
  exact Nat.toDigits_ne_nil (List.append_eq_nil_iff.mp hnil).2

theorem hexNumber_stateDigits : hexNumber (stateDigits g) = g.rngState.toNat := by
  rw [stateDigits, List.leftpad, hexNumber_zeros, hexNumber_toDigits]

theorem getState_eq : g.getState = '0' :: 'x' :: stateDigits g := rfl

theorem cStr_getState : cStr g.getState = g.getState := by
  refine List.takeWhile_eq_self_iff.mpr fun c hc => ?_
  rw [getState_eq] at hc
  rcases List.mem_cons.mp hc with rfl | hc
  · decide
  rcases List.mem_cons.mp hc with rfl | hc
  · decide
  · have hhex := stateDigits_isHex g c hc
    refine decide_eq_true fun hnull => ?_
    rw [hnull] at hhex
    revert hhex
    decide

/-- **The state that is printed is read** with all its 64 bits. -/
theorem strtoull_getState : strtoull g.getState = (g.rngState, []) := by
  have htake : (stateDigits g).takeWhile isHex = stateDigits g :=
    List.takeWhile_eq_self_iff.mpr (stateDigits_isHex g)
  have hdrop : (stateDigits g).dropWhile isHex = [] :=
    List.dropWhile_eq_nil_iff.mpr (stateDigits_isHex g)
  have hpre : afterPrefix g.getState = stateDigits g := by
    rw [getState_eq]
    cases hdigits : stateDigits g with
    | nil => exact (stateDigits_ne_nil g hdigits).elim
    | cons d s =>
      have hd := stateDigits_isHex g d (hdigits ▸ List.mem_cons_self)
      exact if_pos ⟨.inl rfl, hd⟩
  have htrimmed : g.getState.dropWhile isSpace = g.getState := rfl
  have hhead : g.getState.head? = some '0' := rfl
  simp only [strtoull]
  rw [htrimmed, hhead, if_neg (show ¬ (some '0' = some '-' ∨ some '0' = some '+') by decide),
    hpre, htake, hdrop, hexNumber_stateDigits, if_neg (stateDigits_ne_nil g),
    if_neg (by have := g.rngState.isLt; omega), if_neg (by decide),
    BitVec.ofNat_toNat, BitVec.setWidth_eq]

variable [Double F]

/-- A generator that is given the state of `g` has its 64 bits and no number in
store. -/
theorem setState_getState_eq (t : RandomGenerator F) : t.setState g.getState =
    .ok { t with rngState := g.rngState, lastRandomnormal := infinity } := by
  have hlength : 3 ≤ g.getState.length := by
    have := List.length_pos_iff.mpr (stateDigits_ne_nil g)
    rw [getState_eq, List.length_cons, List.length_cons]
    omega
  rw [RandomGenerator.setState, if_neg, cStr_getState, strtoull_getState, if_neg]
  · exact fun hne => hne rfl
  · rintro (hpre | hshort)
    · exact hpre ⟨stateDigits g, rfl⟩
    · omega

/-! ## The same draws -/

/-- A draw that does not look at the number in store. -/
def Draw.Plain : Draw F → Prop
  | .randomNormal _ => False
  | _ => True

open RandomGenerator

/-- Generators that draw the same. -/
structure Same (g h : RandomGenerator F) : Prop where
  rngState : g.rngState = h.rngState
  lastRandomnormal : g.lastRandomnormal = h.lastRandomnormal

theorem random_congr {g h : RandomGenerator F} (heq : g.rngState = h.rngState) :
    g.random.1 = h.random.1 ∧ g.random.2.rngState = h.random.2.rngState := by
  constructor
  all_goals rw [random, random, rand, rand, heq]

variable [DecidableEq F]

theorem Same.draw {g h : RandomGenerator F} (hs : Same g h) (d : Draw F) :
    (g.draw d).1 = (h.draw d).1 ∧ Same (g.draw d).2 (h.draw d).2 := by
  obtain ⟨hout, hnext⟩ := random_congr hs.rngState
  have hsame : Same g.random.2 h.random.2 := ⟨hnext, hs.lastRandomnormal⟩
  cases d with
  | random => exact ⟨hout, hsame⟩
  | randomMax max => exact ⟨congrArg (· * max) hout, hsame⟩
  | randomMinMax min max => exact ⟨congrArg (· * (max - min) + min) hout, hsame⟩
  | randomNormal stddev =>
    rw [RandomGenerator.draw, RandomGenerator.draw, randomNormal, randomNormal,
      hs.lastRandomnormal]
    split
    · exact ⟨rfl, hs.rngState, rfl⟩
    · obtain ⟨hout', hnext'⟩ := random_congr hnext
      dsimp only
      rw [hout, hout']
      exact ⟨rfl, hnext', rfl⟩

theorem Same.outputs {g h : RandomGenerator F} (hs : Same g h) (draws : List (Draw F)) :
    outputs draws g = outputs draws h := by
  induction draws generalizing g h with
  | nil => rfl
  | cons d draws ih =>
    obtain ⟨hout, hnext⟩ := hs.draw d
    rw [RandomGenerator.outputs, RandomGenerator.outputs, hout, ih hnext]

theorem draw_plain {g h : RandomGenerator F} (heq : g.rngState = h.rngState) {d : Draw F}
    (hd : d.Plain) :
    (g.draw d).1 = (h.draw d).1 ∧ (g.draw d).2.rngState = (h.draw d).2.rngState ∧
      (g.draw d).2.lastRandomnormal = g.lastRandomnormal ∧
      (h.draw d).2.lastRandomnormal = h.lastRandomnormal := by
  obtain ⟨hout, hnext⟩ := random_congr heq
  cases d with
  | random => exact ⟨hout, hnext, rfl, rfl⟩
  | randomMax max => exact ⟨congrArg (· * max) hout, hnext, rfl, rfl⟩
  | randomMinMax min max => exact ⟨congrArg (· * (max - min) + min) hout, hnext, rfl, rfl⟩
  | randomNormal stddev => exact hd.elim

theorem outputs_plain {g h : RandomGenerator F} (heq : g.rngState = h.rngState)
    {draws : List (Draw F)} (hplain : ∀ d ∈ draws, d.Plain) :
    outputs draws g = outputs draws h ∧ (after draws g).rngState = (after draws h).rngState ∧
      (after draws g).lastRandomnormal = g.lastRandomnormal ∧
      (after draws h).lastRandomnormal = h.lastRandomnormal := by
  induction draws generalizing g h with
  | nil => exact ⟨rfl, heq, rfl, rfl⟩
  | cons d draws ih =>
    obtain ⟨hout, hnext, hg, hh⟩ := draw_plain heq (hplain d List.mem_cons_self)
    obtain ⟨houts, hafter, hg', hh'⟩ := ih hnext fun d' hd' => hplain d' (List.mem_cons_of_mem _ hd')
    rw [RandomGenerator.outputs, RandomGenerator.outputs, hout, houts]
    exact ⟨rfl, hafter, hg'.trans hg, hh'.trans hh⟩

theorem outputs_append (draws draws' : List (Draw F)) (g : RandomGenerator F) :
    outputs (draws ++ draws') g = outputs draws g ++ outputs draws' (after draws g) := by
  induction draws generalizing g with
  | nil => rfl
  | cons d draws ih =>
    rw [List.cons_append, RandomGenerator.outputs, ih, RandomGenerator.outputs, after,
      List.cons_append]

/-- **The state of a generator, set in another one**: it is accepted, and draws
what the generator draws if that has no number in store. If it has one, it gives
it at its next `randomNormal`; all other draws are the same. -/
theorem setState_getState (g t : RandomGenerator F) :
    ∃ h, t.setState g.getState = .ok h ∧ h.rngState = g.rngState ∧
      (g.lastRandomnormal = infinity → ∀ draws, outputs draws h = outputs draws g) ∧
      (∀ draws : List (Draw F), (∀ d ∈ draws, d.Plain) → outputs draws h = outputs draws g) ∧
      (g.lastRandomnormal ≠ infinity → ∀ (draws draws' : List (Draw F)) (stddev : F),
        (∀ d ∈ draws, d.Plain) → outputs (draws ++ .randomNormal stddev :: draws') g =
          outputs draws h ++ g.lastRandomnormal * stddev :: outputs draws' (after draws h)) := by
  let h : RandomGenerator F :=
    { t with rngState := g.rngState, lastRandomnormal := infinity }
  refine ⟨h, setState_getState_eq g t, rfl, ?_, ?_, ?_⟩
  · intro hnone draws
    have hsame : Same h g := ⟨rfl, hnone.symm⟩
    exact hsame.outputs draws
  · intro draws hplain
    exact (outputs_plain (g := h) (h := g) rfl hplain).1
  · intro hstored draws draws' stddev hplain
    obtain ⟨hout, hstate, hg, hh⟩ := outputs_plain (g := g) (h := h) rfl hplain
    -- The stored number is given; what is left is the other generator.
    have hnormal : (after draws g).draw (.randomNormal stddev) =
        (g.lastRandomnormal * stddev,
          { after draws g with lastRandomnormal := infinity }) := by
      rw [RandomGenerator.draw, randomNormal, hg, if_pos hstored]
    have hsame : Same { after draws g with lastRandomnormal := infinity }
        (after draws h) := ⟨hstate, hh.symm⟩
    rw [outputs_append, hout, RandomGenerator.outputs, hnormal, hsame.outputs]

end States

/-! ### The first draws of the default seed -/

/-- A double, by its bits. -/
structure Binary64 where
  bits : BitVec 64
  deriving DecidableEq

/-- The operations that the results below need the values of. -/
inductive Operation
  | sub
  | mul
  | sqrt
  | log
  | cos
  | sin
  deriving DecidableEq

/-- What the operations give for the numbers that come up in the first two
`randomNormal` calls of a generator with the default seed. -/
def operations : List (Operation × BitVec 64 × BitVec 64 × BitVec 64) :=
  [(.sub, 0x3FFB096FC78CE69F, 0x3FF0000000000000, 0x3FE612DF8F19CD3E),
   (.sub, 0x3FF84297CF9A6252, 0x3FF0000000000000, 0x3FE0852F9F34C4A4),
   (.sub, 0x3FF0000000000000, 0x3FE612DF8F19CD3E, 0x3FD3DA40E1CC6584),
   (.sub, 0x3FF0000000000000, 0x3FE0852F9F34C4A4, 0x3FDEF5A0C19676B8),
   (.sub, 0x3FF9D8437BBD863D, 0x3FF0000000000000, 0x3FE3B086F77B0C7A),
   (.sub, 0x3FF714C6EF37FE1A, 0x3FF0000000000000, 0x3FDC531BBCDFF868),
   (.sub, 0x3FF0000000000000, 0x3FE3B086F77B0C7A, 0x3FD89EF21109E70C),
   (.sub, 0x3FF0000000000000, 0x3FDC531BBCDFF868, 0x3FE1D672219003CC),
   (.mul, 0x4000000000000000, 0x400921FB54442D18, 0x401921FB54442D18),
   (.mul, 0xC000000000000000, 0xBFF2BA9327A14E34, 0x4002BA9327A14E34),
   (.mul, 0x401921FB54442D18, 0x3FDEF5A0C19676B8, 0x400850C60D30D9F1),
   (.mul, 0x3FF87B2626C67D5C, 0xBFEFD54B80BB28B0, 0xBFF85A7A6E9F94E7),
   (.mul, 0x3FF87B2626C67D5C, 0x3FBA1B05C4163817, 0x3FC3F8BB50F33CA4),
   (.mul, 0xC000000000000000, 0xBFEE91B880F35906, 0x3FFE91B880F35906),
   (.mul, 0x401921FB54442D18, 0x3FE1D672219003CC, 0x400C04F4D1E68655),
   (.mul, 0x3FF61DA37DBBFDC4, 0xBFEDF079F13E2CB8, 0xBFF4B10EBAEDC2F7),
   (.mul, 0x3FF61DA37DBBFDC4, 0xBFD69858BC87DC9D, 0xBFDF3B5505A8366C),
   (.sqrt, 0x4002BA9327A14E34, 0x0000000000000000, 0x3FF87B2626C67D5C),
   (.sqrt, 0x3FFE91B880F35906, 0x0000000000000000, 0x3FF61DA37DBBFDC4),
   (.log, 0x3FD3DA40E1CC6584, 0x0000000000000000, 0xBFF2BA9327A14E34),
   (.log, 0x3FD89EF21109E70C, 0x0000000000000000, 0xBFEE91B880F35906),
   (.cos, 0x400850C60D30D9F1, 0x0000000000000000, 0xBFEFD54B80BB28B0),
   (.cos, 0x400C04F4D1E68655, 0x0000000000000000, 0xBFEDF079F13E2CB8),
   (.sin, 0x400850C60D30D9F1, 0x0000000000000000, 0x3FBA1B05C4163817),
   (.sin, 0x400C04F4D1E68655, 0x0000000000000000, 0xBFD69858BC87DC9D)]

def operation (op : Operation) (x y : BitVec 64) : Binary64 :=
  ⟨((operations.find? fun e => e.1 = op && e.2.1 = x && e.2.2.1 = y).map (·.2.2.2)).getD 0⟩

instance : Double Binary64 where
  add x _ := x
  sub x y := operation .sub x.bits y.bits
  mul x y := if y.bits = 0x3FF0000000000000 then x else operation .mul x.bits y.bits
  ofBits bits := ⟨bits⟩
  sqrt x := operation .sqrt x.bits 0
  log x := operation .log x.bits 0
  cos x := operation .cos x.bits 0
  sin x := operation .sin x.bits 0

/-- A new generator. -/
def newGenerator : RandomGenerator Binary64 :=
  ⟨0x0139408DCBBF7A44, 0x0C2EA4BAB1FA6908, Double.infinity⟩

theorem hashLoop_default : hashLoop 1 0x0139408DCBBF7A44 = some 0x0C2EA4BAB1FA6908 := by
  decide +kernel

theorem newGenerator_init : generators.init newGenerator := by
  refine ⟨1, ?_⟩
  rw [RandomGenerator.new, RandomGenerator.setSeed, hashLoop_default]
  rfl

theorem newGenerator_reachable : generators.Reachable newGenerator := .init newGenerator_init

/-- A new generator after one `randomNormal`. -/
def storedGenerator : RandomGenerator Binary64 :=
  (newGenerator.draw (.randomNormal Double.one)).2

theorem setState_getState_new :
    (∃ h, newGenerator.setState newGenerator.getState = .ok h ∧
      RandomGenerator.outputs [.randomNormal one] h =
        RandomGenerator.outputs [.randomNormal one] newGenerator) ∧
    ∃ h, newGenerator.setState storedGenerator.getState = .ok h ∧
      RandomGenerator.outputs [.random, .randomNormal one, .random] storedGenerator =
        RandomGenerator.outputs [.random] h ++ storedGenerator.lastRandomnormal * one ::
          RandomGenerator.outputs [.random] (RandomGenerator.after [.random] h) := by
  constructor
  · obtain ⟨h, hok, -, hsame, -⟩ := setState_getState newGenerator newGenerator
    exact ⟨h, hok, hsame rfl _⟩
  · obtain ⟨h, hok, -, -, -, hstored⟩ := setState_getState storedGenerator newGenerator
    refine ⟨h, hok, hstored (by decide +kernel) [.random] [.random] one ?_⟩
    intro d hd
    exact List.mem_singleton.mp hd ▸ trivial

/-- After one `randomNormal`, the state is not all that the next one depends
on. -/
theorem setState_getState_stored : ∃ g h : RandomGenerator Binary64, generators.Reachable g ∧
    newGenerator.setState g.getState = .ok h ∧
    RandomGenerator.outputs [.randomNormal one] h ≠
      RandomGenerator.outputs [.randomNormal one] g := by
  refine ⟨storedGenerator, _,
    .step (e := .draw (.randomNormal one)) newGenerator_reachable rfl,
    setState_getState_eq _ newGenerator, ?_⟩
  decide +kernel

/-! ## The state is never zero -/

theorem xor_shiftRight_ne_zero {x : BitVec 64} {k : Nat} (hk : 0 < k) (hx : x ≠ 0) :
    x ^^^ (x >>> k) ≠ 0 := by
  intro hzero
  have heq := congrArg BitVec.toNat (BitVec.xor_eq_zero_iff.mp hzero)
  rw [BitVec.toNat_ushiftRight, Nat.shiftRight_eq_div_pow] at heq
  refine hx (BitVec.eq_of_toNat_eq ?_)
  by_contra hne
  have hlt := Nat.div_lt_self (Nat.pos_of_ne_zero hne) (Nat.one_lt_two_pow (by omega : k ≠ 0))
  omega

/-- A shift to the left by 25 bits moves every number but zero: `2 ^ 25 - 1` is odd. -/
theorem xor_shiftLeft_ne_zero {x : BitVec 64} (hx : x ≠ 0) : x ^^^ (x <<< 25) ≠ 0 := by
  intro hzero
  have heq := congrArg BitVec.toNat (BitVec.xor_eq_zero_iff.mp hzero)
  rw [BitVec.toNat_shiftLeft, Nat.shiftLeft_eq] at heq
  have hdvd : 2 ^ 64 ∣ x.toNat * (2 ^ 25 - 1) := by
    rw [Nat.mul_sub, mul_one]
    refine (Nat.modEq_iff_dvd' (Nat.le_mul_of_pos_right _ (by decide))).mp ?_
    rw [Nat.ModEq, Nat.mod_eq_of_lt x.isLt]
    exact heq
  have hnat : x.toNat = 0 :=
    Nat.eq_zero_of_dvd_of_lt (Nat.Coprime.dvd_of_dvd_mul_right (by norm_num) hdvd) x.isLt
  exact hx (BitVec.eq_of_toNat_eq (by simpa using hnat))

theorem xorshift_ne_zero {state : BitVec 64} (h : state ≠ 0) : xorshift state ≠ 0 :=
  xor_shiftRight_ne_zero (by decide) (xor_shiftLeft_ne_zero (xor_shiftRight_ne_zero (by decide) h))

theorem wangHash64_zero : wangHash64 0 ≠ 0 := by decide +kernel

/-- **The loop of `setSeed`** ends after two rounds at most. -/
theorem hashLoop_ends (newseed : BitVec 64) (fuel : Nat) :
    ∃ state, hashLoop (fuel + 2) newseed = some state ∧ state ≠ 0 := by
  by_cases hzero : wangHash64 newseed = 0
  · refine ⟨wangHash64 0, ?_, wangHash64_zero⟩
    rw [hashLoop, if_pos hzero, hzero, hashLoop, if_neg wangHash64_zero]
  · exact ⟨_, if_neg hzero, hzero⟩

theorem hashLoop_ne_zero {fuel : Nat} {newseed state : BitVec 64}
    (h : hashLoop fuel newseed = some state) : state ≠ 0 := by
  induction fuel generalizing newseed with
  | zero => cases h
  | succ fuel ih =>
    rw [hashLoop] at h
    split at h
    · exact ih h
    · next hne => exact Option.some.inj h ▸ hne

section Runs

variable {F : Type}

theorem rand_ne_zero {g : RandomGenerator F} (h : g.rngState ≠ 0) : g.rand.2.rngState ≠ 0 :=
  xorshift_ne_zero h

/-- A string that `setState` accepts, of which it reads zero. -/
def ZeroState (statestr : List Char) : Prop :=
  ['0', 'x'] <+: statestr ∧ 3 ≤ statestr.length ∧ strtoull (cStr statestr) = (0, [])

/-- A call does not set the state to zero. -/
def RngOp.NoZero : RngOp F → Prop
  | .setState statestr => ¬ ZeroState statestr
  | _ => True

variable [Double F]

theorem setSeed_ne_zero {fuel : Nat} {newseed : BitVec 64} {g : RandomGenerator F}
    (h : RandomGenerator.setSeed fuel newseed = some g) : g.rngState ≠ 0 := by
  obtain ⟨state, hloop, rfl⟩ := Option.map_eq_some_iff.mp h
  exact hashLoop_ne_zero hloop

theorem setState_ne_zero {g g' : RandomGenerator F} {statestr : List Char}
    (hzero : ¬ ZeroState statestr) (h : g.setState statestr = .ok g') : g'.rngState ≠ 0 := by
  rw [RandomGenerator.setState] at h
  split_ifs at h with hform hrest
  cases h
  intro hnull
  -- What was read is zero, and nothing is left of the string.
  rw [not_or, not_not, not_lt] at hform
  exact hzero ⟨hform.1, hform.2, Prod.ext hnull (not_not.mp hrest)⟩

variable [DecidableEq F]

/-- **A draw** from a state that is not zero leaves one that is not. -/
theorem draw_ne_zero {g : RandomGenerator F} (h : g.rngState ≠ 0) (d : Draw F) :
    (g.draw d).2.rngState ≠ 0 := by
  cases d with
  | random | randomMax max | randomMinMax min max => exact rand_ne_zero h
  | randomNormal stddev =>
    rw [RandomGenerator.draw, RandomGenerator.randomNormal]
    split
    · exact h
    · exact rand_ne_zero (rand_ne_zero h)

theorem rngStep_ne_zero {g g' : RandomGenerator F} {op : RngOp F} (hg : g.rngState ≠ 0)
    (hop : op.NoZero) (h : rngStep g op = some g') : g'.rngState ≠ 0 := by
  cases op with
  | setSeed newseed fuel => exact setSeed_ne_zero h
  | setState statestr =>
    rw [rngStep] at h
    cases hset : g.setState statestr with
    | ok g₁ =>
      rw [hset] at h
      cases h
      exact setState_ne_zero hop hset
    | error message =>
      rw [hset] at h
      cases h
      exact hg
  | draw d =>
    cases h
    exact draw_ne_zero hg d

end Runs

variable {F : Type} [Double F] [DecidableEq F]

/-- **The state is never zero** in runs that do not set it to zero. The loop of
`setSeed` ends for every seed, and every draw leaves a state that is not zero. -/
theorem rngState_ne_zero :
    (∀ newseed fuel, ∃ g : RandomGenerator F,
      RandomGenerator.setSeed (fuel + 2) newseed = some g ∧ g.rngState ≠ 0) ∧
    (∀ (g : RandomGenerator F) d, g.rngState ≠ 0 → (g.draw d).2.rngState ≠ 0) ∧
    ∀ g : RandomGenerator F, (generators.restrict fun _ op => op.NoZero).Reachable g →
      g.rngState ≠ 0 := by
  refine ⟨?_, fun g d hg => draw_ne_zero hg d, ?_⟩
  · intro newseed fuel
    obtain ⟨state, hloop, hne⟩ := hashLoop_ends newseed fuel
    exact ⟨⟨newseed, state, infinity⟩, by rw [RandomGenerator.setSeed, hloop]; rfl, hne⟩
  · intro g hg
    refine hg.invariant_restrict (I := fun g => g.rngState ≠ 0) ?_ ?_
    · rintro g ⟨fuel, hnew⟩
      exact setSeed_ne_zero hnew
    · intro g op g' hg hop hstep
      have hstep : rngStep g op = some g' := hstep
      exact rngStep_ne_zero hg hop hstep

theorem rngState_ne_zero_new :
    (∃ g : RandomGenerator Binary64, RandomGenerator.setSeed 2 0 = some g ∧ g.rngState ≠ 0) ∧
    newGenerator.rngState ≠ 0 ∧ (newGenerator.draw .random).2.rngState ≠ 0 := by
  obtain ⟨hseed, hdraw, hrun⟩ := rngState_ne_zero (F := Binary64)
  have hnew := hrun newGenerator (.init newGenerator_init)
  exact ⟨hseed 0 0, hnew, hdraw newGenerator .random hnew⟩

/-- A new generator whose state was set to zero. -/
def zeroGenerator : RandomGenerator Binary64 :=
  ⟨0x0139408DCBBF7A44, 0, Double.infinity⟩

/-- A generator whose state is set to zero draws nothing but zeros. -/
theorem setState_zero : generators.Reachable zeroGenerator ∧ zeroGenerator.rngState = 0 ∧
    zeroGenerator.rand = (0, zeroGenerator) := by
  have hset : newGenerator.setState ['0', 'x', '0'] = .ok zeroGenerator := by
    have hread : strtoull (cStr ['0', 'x', '0']) = (0, []) := by decide +kernel
    rw [RandomGenerator.setState, hread, if_neg (by decide), if_neg (by decide)]
    rfl
  refine ⟨.step (e := .setState ['0', 'x', '0']) newGenerator_reachable ?_, rfl, ?_⟩
  · show rngStep newGenerator (.setState ['0', 'x', '0']) = some zeroGenerator
    rw [rngStep, hset]
  · exact Prod.ext (by decide +kernel) rfl

/-! ## No two states meet -/

theorem xor_xor_of_linear {f : BitVec 64 → BitVec 64} (hf : ∀ a b, f (a ^^^ b) = f a ^^^ f b)
    (a b : BitVec 64) : a ^^^ b ^^^ f (a ^^^ b) = (a ^^^ f a) ^^^ (b ^^^ f b) := by
  rw [hf]
  generalize f a = fa, f b = fb
  ac_rfl

theorem xorshift_xor (a b : BitVec 64) : xorshift (a ^^^ b) = xorshift a ^^^ xorshift b := by
  simp only [xorshift]
  rw [xor_xor_of_linear (f := (· >>> 12)) fun _ _ => BitVec.ushiftRight_xor_distrib ..,
    xor_xor_of_linear (f := (· <<< 25)) fun _ _ => BitVec.shiftLeft_xor_distrib ..,
    xor_xor_of_linear (f := (· >>> 27)) fun _ _ => BitVec.ushiftRight_xor_distrib ..]

/-- Two states differ by one that is not zero. -/
theorem xorshift_injective : Function.Injective xorshift := by
  intro a b heq
  by_contra hne
  refine xorshift_ne_zero (mt BitVec.xor_eq_zero_iff.mp hne) ?_
  rw [xorshift_xor, heq]
  exact BitVec.xor_self

theorem rngState_iterate {F : Type} (n : Nat) (g : RandomGenerator F) :
    ((fun g => g.rand.2)^[n] g).rngState = xorshift^[n] g.rngState := by
  induction n generalizing g with
  | zero => rfl
  | succ n ih => exact ih g.rand.2

/-- **Every number is drawn from one state**: however many draws come before, the next number of
`rand()` tells all states apart, and every number is that of one. -/
theorem rand_bijective {F : Type} (g : RandomGenerator F) (n : Nat) : Function.Bijective
    fun state =>
      ((fun g : RandomGenerator F => g.rand.2)^[n] { g with rngState := state }).rand.1 := by
  have hodd : Function.LeftInverse (fun x : BitVec 64 => x * 6415128727920758069)
      fun x => x * 2685821657736338717 := by
    intro x
    dsimp only
    rw [BitVec.mul_assoc]
    exact BitVec.mul_one x
  have hfinite : Finite (BitVec 64) :=
    Finite.of_injective BitVec.toFin fun _ _ => BitVec.eq_of_toFin_eq
  refine Finite.injective_iff_bijective.mp fun a b heq => (xorshift_injective.iterate (n + 1)) ?_
  have hproduct := hodd.injective heq
  rw [rngState_iterate, rngState_iterate] at hproduct
  rwa [Function.iterate_succ_apply', Function.iterate_succ_apply']

end Lhatove.Math
