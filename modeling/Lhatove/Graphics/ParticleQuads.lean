import Lhatove.Graphics.ParticleChains

/-!
# The quads of particles

With a list of quads, each particle is drawn with the one at its `quadIndex`. That
is computed by `update` from the particle's life; `setQuads` replaces the list at
any time, and `draw` does not look again.

- `quadIndexAt`: the index for a point of a particle's life, for any floats;
- `drawnQuads`: the quads that the loop of `draw` takes;
- `particle_quads`: the indices are right in all runs in which the lists that are
  set are long enough for the particles there are.

Quads are a type `Q`, and what else a particle carries is a type `E`.
-/

namespace Lhatove.Graphics

open Pool

/-- What a particle carries besides its links and its life. -/
structure Body (F E : Type) where
  lifetime : F
  quadIndex : Int
  rest : E

/-- A conversion to `int`. -/
def toInt32 (n : Nat) : Int := (n : Int).bmod (2 ^ 32)

/-- The position in a vector that an `int` stands for: it is converted to `size_t`. -/
def vectorIndex (i : Int) : Nat := (i % 2 ^ 64).toNat

section Floats

variable {F E Q : Type}

/-- `quadIndex` for the part `t` of a life, with `k` quads; `toSize` is the
conversion of a float to `size_t`. -/
def quadIndexAt [Zero F] [Mul F] [LT F] [DecidableLT F] [NatCast F] (toSize : F → Nat) (k : Nat)
    (t : F) : Int :=
  let s := t * (k : F)
  let i := if 0 < s then toSize s else 0
  toInt32 (if i < k then i else k - 1)

/-- What the loop of `update` does to a particle that goes on living. -/
def moveBody [Zero F] [One F] [Sub F] [Div F] [Mul F] [LT F] [DecidableLT F] [NatCast F]
    (toSize : F → Nat) (quads : List Q) (move : F → F → E → E) (life : F) (b : Body F E) :
    Body F E :=
  { b with
    rest := move life b.lifetime b.rest
    quadIndex := if quads = [] then b.quadIndex
      else quadIndexAt toSize quads.length (1 - life / b.lifetime) }

/-- What `initParticle` writes: the life of the new particle is its lifetime. -/
def initBody (spawn : Spawn F E) : Spawn F (Body F E) where
  initial t := ((spawn.initial t).1, ⟨(spawn.initial t).1, 0, (spawn.initial t).2⟩)
  rand := spawn.rand

/-! ## The system -/

/-- A particle system with its quads. -/
structure QuadParticles (F E Q : Type) extends ParticleSystem F (Body F E) where
  quads : List Q

/-- A call. All but the setting of quads are those of `ParticleSystem.Op`. -/
inductive QuadOp (F E Q : Type)
  | setQuads (quads : List Q)
  | clearQuads
  | setBufferSize (size : Nat) (alloc : Pool.Alloc)
  | setInsertMode (mode : InsertMode)
  | setEmissionRate (rate : F)
  | setEmitterLifetime (life : F)
  | emit (num : Nat) (spawn : Nat → Spawn F E)
  | update (fuel : Nat) (dt : F) (move : F → F → E → E) (spawn : Nat → Spawn F E)
  | reset
  | start
  | stop
  | pause

variable [Zero F] [One F] [Neg F] [Add F] [Sub F] [Mul F] [Div F] [LT F] [LE F] [BEq F]
variable [DecidableLT F] [DecidableLE F] [NatCast F]

/-- The call as one of the particle system, unless it is about quads only. -/
def QuadOp.toOp (toSize : F → Nat) (quads : List Q) :
    QuadOp F E Q → Option (ParticleSystem.Op F (Body F E))
  | .setQuads _ => none
  | .clearQuads => none
  | .setBufferSize size alloc => some (.setBufferSize size alloc)
  | .setInsertMode mode => some (.setInsertMode mode)
  | .setEmissionRate rate => some (.setEmissionRate rate)
  | .setEmitterLifetime life => some (.setEmitterLifetime life)
  | .emit num spawn => some (.emit num fun n => initBody (spawn n))
  | .update fuel dt move spawn =>
    some (.update fuel dt (moveBody toSize quads move) fun n => initBody (spawn n))
  | .reset => some .reset
  | .start => some .start
  | .stop => some .stop
  | .pause => some .pause

/-- The list of quads after a call. -/
def QuadOp.newQuads (quads : List Q) : QuadOp F E Q → List Q
  | .setQuads newQuads => newQuads
  | .clearQuads => []
  | _ => quads

/-- The state after a call, whether it returned or threw; none when a pointer faults. -/
def quadStep (toSize : F → Nat) (s : QuadParticles F E Q) (op : QuadOp F E Q) :
    Option (QuadParticles F E Q) :=
  match op.toOp toSize s.quads with
  | none => some { s with quads := op.newQuads s.quads }
  | some call => (ParticleSystem.step s.toParticleSystem call).map fun s' => { s with
      toParticleSystem := s', quads := op.newQuads s.quads }

/-- A new object has no quads, a clone those of the other. -/
def quadParticles (toSize : F → Nat) : System (QuadParticles F E Q) (QuadOp F E Q) :=
  System.ofStep
    (fun s => (∃ mem texture2D size alloc,
        ParticleSystem.construct mem texture2D size alloc = .ok s.toParticleSystem ∧ s.quads = []) ∨
      ∃ mem alloc, ∃ p : QuadParticles F E Q,
        ParticleSystem.clone mem alloc p.toParticleSystem = .ok s.toParticleSystem ∧
          s.quads = p.quads)
    (quadStep toSize)

/-! ## Drawing -/

omit [Zero F] [One F] [Neg F] [Add F] [Sub F] [Mul F] [Div F] [LT F] [LE F] [BEq F]
  [DecidableLT F] [DecidableLE F] [NatCast F]

/-- The quad that a particle is drawn with, or none when the texture's own is taken.
An index behind the end of the list is a fault. -/
def quadOf (quads : List Q) (b : Body F E) : Option (Option Q) :=
  if quads = [] then some none else (quads[vectorIndex b.quadIndex]?).map some

/-- The loop of `draw` over the particles, from one of them on, with the quads that
they are drawn with. A pointer that cannot be followed is a fault too. -/
def drawLoop (quads : List Q) : Nat → Ptr → Pool F (Body F E) → Option (List (Option Q))
  | _, none, _ => some []
  | 0, some _, _ => none
  | fuel + 1, some p, s => do
    let q ← s.load (some p)
    let quad ← quadOf quads q.body
    let rest ← drawLoop quads fuel q.next s
    pure (quad :: rest)

/-- The particles that the loop of `draw` comes to. -/
inductive Pool.Visited (s : Pool F (Body F E)) : Ptr → Prop
  | head : s.Visited s.pHead
  | next {a : Addr} : s.Visited (some a) → s.Allocated a → s.Visited (s.mem a).next

/-! ## Indices -/

/-- The index is one of a list of this many quads, unless that is empty. -/
def QuadInRange (quads : Nat) (b : Body F E) : Prop := quads ≠ 0 → vectorIndex b.quadIndex < quads

theorem vectorIndex_toInt32 {n : Nat} (h : n < 2147483648) : vectorIndex (toInt32 n) = n := by
  have hn : toInt32 n = n := by
    exact Int.bmod_eq_of_le (by omega) (by omega)
  rw [hn, vectorIndex]
  omega

/-- **The index formula** stays in range at the ends of the life, whatever the
floats are. -/
theorem quadIndexAt_lt [Zero F] [Mul F] [LT F] [DecidableLT F] [NatCast F] (toSize : F → Nat)
    {k : Nat} (hpos : k ≠ 0) (hk : k ≤ 2 ^ 31) (t : F) : vectorIndex (quadIndexAt toSize k t) < k := by
  unfold quadIndexAt
  dsimp only
  generalize (if 0 < t * (k : F) then toSize (t * (k : F)) else 0) = i
  by_cases hi : i < k
  · rw [if_pos hi, vectorIndex_toInt32 (by omega)]
    exact hi
  · rw [if_neg hi, vectorIndex_toInt32 (by omega)]
    omega

theorem quadInRange_init (quads : Nat) (spawn : Spawn F E) (t : F) :
    QuadInRange quads ((initBody spawn).initial t).2 := fun hpos => Nat.pos_of_ne_zero hpos

/-! ## Runs -/

/-- The particles there are can be drawn with a list of quads that is set, and
`update` counts quads in an `int`. -/
def QuadOp.Fits (s : QuadParticles F E Q) : QuadOp F E Q → Prop
  | .setQuads quads => ∀ a, s.toPool.Used a → QuadInRange quads.length (s.toPool.data a).2
  | .update .. => s.quads.length ≤ 2 ^ 31
  | _ => True

/-- The particles can be drawn: the active ones, and those that `draw` comes to. -/
structure QuadsInRange (s : QuadParticles F E Q) : Prop where
  active : ∀ a, s.toPool.Used a → s.quads ≠ [] →
    vectorIndex (s.mem a).body.quadIndex < s.quads.length
  visited : ∀ a, s.toPool.Visited (some a) → s.toPool.Allocated a → s.quads ≠ [] →
    vectorIndex (s.mem a).body.quadIndex < s.quads.length
  /-- the quads are no reason for `draw` to fault -/
  draws : ∀ fuel, (drawLoop s.quads fuel s.pHead s.toPool).isSome =
    (drawLoop ([] : List Q) fuel s.pHead s.toPool).isSome

theorem used_of_visited {P : Body F E → Prop} {s : Pool F (Body F E)} (h : s.Holds P) {x : Ptr}
    (hx : s.Visited x) : ∀ a, x = some a → s.Own a → s.Used a := by
  induction hx with
  | head => exact fun a ha => (h.head a ha).2
  | @next b _ hal ih =>
    intro a ha _
    exact (h.links.next b a (ih b rfl hal.1) ha).1

theorem drawLoop_isSome {quads : List Q} {s : Pool F (Body F E)}
    (h : ∀ a, s.Visited (some a) → s.Allocated a → quads ≠ [] →
      vectorIndex (s.mem a).body.quadIndex < quads.length) :
    ∀ (fuel : Nat) {x : Ptr}, s.Visited x →
      (drawLoop quads fuel x s).isSome = (drawLoop ([] : List Q) fuel x s).isSome
  | 0, none, _ => rfl
  | _ + 1, none, _ => rfl
  | 0, some _, _ => rfl
  | fuel + 1, some a, hx => by
    by_cases hal : s.Allocated a
    · have hrest := drawLoop_isSome h fuel (hx.next hal)
      have hquad : ∃ quad, quadOf quads (s.mem a).body = some quad := by
        rw [quadOf]
        by_cases hnil : quads = []
        · exact ⟨none, if_pos hnil⟩
        · rw [if_neg hnil, List.getElem?_eq_getElem (h a hx hal hnil)]
          exact ⟨_, rfl⟩
      have hnone : quadOf ([] : List Q) (s.mem a).body = some none := if_pos rfl
      obtain ⟨quad, hquad⟩ := hquad
      unfold drawLoop
      rw [load_eq hal, Option.bind_eq_bind, Option.bind_some, Option.bind_some, hquad, hnone]
      change ((drawLoop quads fuel (s.mem a).next s).bind (some ∘ (quad :: ·))).isSome =
        ((drawLoop ([] : List Q) fuel (s.mem a).next s).bind (some ∘ (none :: ·))).isSome
      rw [← Option.map_eq_bind, ← Option.map_eq_bind, Option.isSome_map, Option.isSome_map]
      exact hrest
    · have hload : s.load (some a) = none := if_neg hal
      simp only [drawLoop, hload, Option.bind_eq_bind, Option.bind_none]

theorem Pool.Holds.quadsInRange {s : QuadParticles F E Q}
    (h : s.toPool.Holds (QuadInRange s.quads.length)) : QuadsInRange s := by
  have hused : ∀ a, s.toPool.Used a → s.quads ≠ [] →
      vectorIndex (s.mem a).body.quadIndex < s.quads.length :=
    fun a ha hne => h.bodies a ha fun hzero => hne (List.eq_nil_of_length_eq_zero hzero)
  have hvisited : ∀ a, s.toPool.Visited (some a) → s.toPool.Allocated a → s.quads ≠ [] →
      vectorIndex (s.mem a).body.quadIndex < s.quads.length :=
    fun a ha hal hne => hused a (used_of_visited h ha a rfl hal.1) hne
  exact ⟨hused, hvisited, fun fuel => drawLoop_isSome hvisited fuel .head⟩

variable [Zero F] [One F] [Neg F] [Add F] [Sub F] [Mul F] [Div F] [LT F] [LE F] [BEq F]
variable [DecidableLT F] [DecidableLE F] [NatCast F]

omit [Neg F] [Add F] [LE F] [BEq F] [DecidableLE F] in
theorem quadInRange_moveBody {toSize : F → Nat} {quads : List Q} {move : F → F → E → E}
    (hquads : quads.length ≤ 2 ^ 31) (life : F) (b : Body F E) (hb : QuadInRange quads.length b) :
    QuadInRange quads.length (moveBody toSize quads move life b) := by
  intro hpos
  rw [moveBody]
  dsimp only
  by_cases hnil : quads = []
  · rw [if_pos hnil]
    exact hb hpos
  · rw [if_neg hnil]
    exact quadIndexAt_lt toSize hpos hquads _

/-- **One call.** -/
theorem quadStep_inRange {toSize : F → Nat} {s s' : QuadParticles F E Q} {op : QuadOp F E Q}
    (h : s.toPool.Holds (QuadInRange s.quads.length)) (hfits : op.Fits s)
    (hstep : quadStep toSize s op = some s') :
    s'.toPool.Holds (QuadInRange s'.quads.length) := by
  -- the calls that are not about quads
  have hcall : ∀ call : ParticleSystem.Op F (Body F E), op.toOp toSize s.quads = some call →
      op.newQuads s.quads = s.quads → call.Writes (QuadInRange s.quads.length) →
      s'.toPool.Holds (QuadInRange s'.quads.length) := by
    intro call hop hquads hwrites
    rw [quadStep, hop] at hstep
    obtain ⟨s₁, hs₁, rfl⟩ := Option.map_eq_some_iff.mp hstep
    rw [hquads]
    exact ParticleSystem.step_holds h hwrites hs₁
  cases op with
  | setQuads quads =>
    cases hstep
    exact { h with bodies := hfits }
  | clearQuads =>
    cases hstep
    exact { h with bodies := fun _ _ hpos => absurd rfl hpos }
  | setBufferSize size alloc | setInsertMode mode | setEmissionRate rate | setEmitterLifetime life =>
    exact hcall _ rfl rfl trivial
  | emit num spawn => exact hcall _ rfl rfl fun n t => quadInRange_init _ (spawn n) t
  | update fuel dt move spawn =>
    exact hcall _ rfl rfl ⟨quadInRange_moveBody hfits, fun n t => quadInRange_init _ (spawn n) t⟩
  | reset | start | stop | pause => exact hcall _ rfl rfl trivial

/-- **The quads of particles.** In every state of every run in which the lists that
are set are long enough for the particles there are, every active particle has the
index of a quad, and so has every particle that `draw` comes to. -/
theorem particle_quads {toSize : F → Nat} {s : QuadParticles F E Q}
    (h : ((quadParticles toSize).restrict fun s op => op.Fits s).Reachable s) : QuadsInRange s := by
  have hs : s.toPool.Holds (QuadInRange s.quads.length) := by
    refine h.invariant_restrict ?_ fun s op s' hs hfits hstep => quadStep_inRange hs hfits hstep
    rintro s (⟨mem, texture2D, size, alloc, hs, -⟩ | ⟨mem, alloc, p, hs, -⟩)
    · exact ParticleSystem.created_holds (.inl ⟨mem, texture2D, size, alloc, hs⟩)
    · exact ParticleSystem.created_holds (.inr ⟨mem, alloc, p.toParticleSystem, hs⟩)
  exact hs.quadsInRange

end Floats

/-! ## Two runs -/

/-- Truncation. -/
def floorIndex (q : ℚ) : Nat := q.floor.toNat

/-- A system for one particle, with two quads. -/
def oneParticle : Except String (ParticleSystem ℚ (Body ℚ Unit)) :=
  ParticleSystem.construct (fun _ => ⟨none, none, 0, ⟨0, 0, ()⟩⟩) true 1 .ok

/-- Two quads, a particle that lives for one second, of which three quarters pass,
and then one quad. -/
def shortenedQuads : List (QuadOp ℚ Unit Nat) :=
  [.setQuads [7, 8], .emit 1 fun _ => ⟨fun _ => (1, ()), 0⟩, .pause,
    .update 2 (3 / 4) (fun _ _ d => d) (fun _ => ⟨fun _ => (1, ()), 0⟩), .setQuads [9]]

theorem particle_quads_emit : ∃ s : QuadParticles ℚ Unit Nat, s.activeParticles = 1 ∧
    s.quads = [7, 8] ∧ QuadsInRange s := by
  obtain ⟨s₀, hs₀⟩ : ∃ s₀, oneParticle = .ok s₀ := ⟨_, rfl⟩
  set start : QuadParticles ℚ Unit Nat := { toParticleSystem := s₀, quads := [] } with hstart
  set chosen : QuadParticles ℚ Unit Nat := { toParticleSystem := s₀, quads := [7, 8] } with hchosen
  have hrun : (quadStep floorIndex chosen (.emit 1 fun _ => ⟨fun _ => (1, ()), 0⟩)).map
      (fun s => (s.activeParticles, s.quads)) = some (1, [7, 8]) := by
    cases hs₀
    decide +kernel
  obtain ⟨s, hstep, hstate⟩ := Option.map_eq_some_iff.mp hrun
  obtain ⟨hcount, hquads⟩ := Prod.mk.inj hstate
  have hempty : s₀.activeParticles = 0 := by
    cases hs₀
    rfl
  have hfits : QuadOp.Fits start (.setQuads [7, 8] : QuadOp ℚ Unit Nat) := by
    intro a ha
    have hlt : a.slot < s₀.activeParticles := ha.2
    omega
  have hinit : (quadParticles floorIndex).init start := .inl ⟨_, true, 1, .ok, hs₀, rfl⟩
  have hchosen : ((quadParticles floorIndex).restrict fun s op => op.Fits s).Reachable chosen :=
    .restrict_step (.init hinit) (.setQuads [7, 8]) hfits rfl
  refine ⟨s, hcount, hquads, @particle_quads ℚ Unit Nat _ _ _ _ _ _ _ _ _ _ _ _ _ floorIndex s ?_⟩
  exact .restrict_step hchosen (.emit 1 fun _ => ⟨fun _ => (1, ()), 0⟩) trivial hstep

/-- The particle still has the index of the quad that is gone. -/
theorem shortened_quads_out_of_range : ∃ s : QuadParticles ℚ Unit Nat,
    (quadParticles floorIndex).Reachable s ∧ ¬ QuadsInRange s := by
  obtain ⟨s₀, hs₀⟩ : ∃ s₀, oneParticle = .ok s₀ := ⟨_, rfl⟩
  have hrun : (System.run (quadStep floorIndex)
      { toParticleSystem := s₀, quads := [] } shortenedQuads).map (fun s =>
        (s.pMem, s.activeParticles, s.quads, (s.mem ⟨0, 0⟩).body.quadIndex)) =
      some (some ⟨0, 0⟩, 1, [9], 1) := by
    cases hs₀
    decide +kernel
  obtain ⟨s, hs, hstate⟩ := Option.map_eq_some_iff.mp hrun
  obtain ⟨hpMem, hcount, hquads, hindex⟩ : s.pMem = some ⟨0, 0⟩ ∧ s.activeParticles = 1 ∧
      s.quads = [9] ∧ (s.mem ⟨0, 0⟩).body.quadIndex = 1 := by
    simpa only [Prod.mk.injEq] using hstate
  have hinit : (quadParticles floorIndex).init { toParticleSystem := s₀, quads := ([] : List Nat) } :=
    .inl ⟨_, true, 1, .ok, hs₀, rfl⟩
  refine ⟨s, .of_run (.init hinit) hs, fun hrange => ?_⟩
  have hlt := hrange.active ⟨0, 0⟩ ⟨hpMem, by rw [hcount]; decide⟩ (by rw [hquads]; decide)
  rw [hindex, hquads] at hlt
  exact absurd hlt (by decide)

end Lhatove.Graphics
