import Lhatove.Graphics.SpriteBatchRuns

/-!
# Changes of a batch's size that fail

`setBufferSize` gets new memory for the vertices first and a new buffer second.
When the buffer cannot be made, `realloc` has already been called.

- `Intact`: a batch has what it had before, and can go on;
- `Resize.Spares`: what a change that fails may not have done to the memory;
- `failed_resize_intact_iff`: over the runs whose changes of the size spare the
  memory, when the next one leaves the batch as it was.
-/

namespace Lhatove.Graphics

open SpriteBatch

/-- The memory of a batch has room for its sprites. -/
structure Held (s : SpriteBatch) : Prop where
  size_pos : 0 < s.size
  vertices : s.size * s.spriteSize ≤ s.vertexData.size

/-- Nothing that a batch has is different: its sprites, its size, its buffer, and
the memory of its vertices, which still is there. -/
structure Intact (s s' : SpriteBatch) : Prop where
  rest : { s' with vertexData := s.vertexData } = s
  vertices : s.size * s.spriteSize ≤ s'.vertexData.size
  bytes : ∀ a < s.size * s.spriteSize, s'.vertexData.bytes a = s.vertexData.bytes a

variable {s : SpriteBatch}

theorem Held.intact_self (hs : Held s) : Intact s s :=
  ⟨rfl, hs.vertices, fun _ _ => rfl⟩

theorem Intact.held {s' : SpriteBatch} (h : Intact s s') (hs : Held s) : Held s' := by
  have hsize := congrArg SpriteBatch.size h.rest
  have htexture := congrArg SpriteBatch.texture h.rest
  dsimp only at hsize htexture
  refine ⟨hsize ▸ hs.size_pos, ?_⟩
  rw [hsize, spriteSize_congr htexture]
  exact h.vertices

/-- If the new buffer cannot be made, `realloc` has left the vertices where they
were, and all of them. -/
def Resize.Spares (env : Resize) (s : SpriteBatch) (newsize : Int) : Prop :=
  0 < newsize → newsize.toNat ≠ s.size → env.block ≠ .failed → env.newBuffer ≠ none →
    env.block = .inPlace ∧ s.size < newsize

/-! ## One change of the size -/

variable {env : Resize}

theorem Held.grown (hs : Held s) {size : Nat} (hsize : s.size ≤ size) :
    Intact s { s with vertexData := s.vertexData.realloc (s.spriteSize * size) env.fresh } := by
  refine ⟨rfl, ?_, fun a ha => realloc_bytes _ (lt_of_lt_of_le ha hs.vertices)⟩
  rw [Nat.mul_comm s.spriteSize]
  exact Nat.mul_le_mul_right _ hsize

theorem Held.intact (hs : Held s) {newsize : Int} (hspares : env.Spares s newsize)
    (hthrows : (s.setBufferSize env newsize).1 ≠ none) :
    Intact s (s.setBufferSize env newsize).2 := by
  rw [SpriteBatch.setBufferSize] at hthrows ⊢
  by_cases hpos : newsize ≤ 0
  · rw [if_pos hpos]
    exact hs.intact_self
  by_cases hsame : newsize.toNat = s.size
  · rw [if_neg hpos, if_pos hsame]
    exact hs.intact_self
  by_cases hfailed : env.block = .failed
  · rw [if_neg hpos, if_neg hsame, if_pos hfailed]
    exact hs.intact_self
  rw [if_neg hpos, if_neg hsame, if_neg hfailed] at hthrows ⊢
  cases hbuffer : env.newBuffer with
  | none =>
    rw [hbuffer] at hthrows
    exact absurd rfl hthrows
  | some message =>
    obtain ⟨hplace, hgrown⟩ :=
      hspares (not_le.mp hpos) hsame hfailed (by rw [hbuffer]; exact Option.some_ne_none _)
    dsimp only
    have hkept : env.block ≠ .moved := by
      rw [hplace]
      decide
    rw [if_neg hkept]
    exact hs.grown (by omega)

/-- A change that does not spare the memory throws, and the vertices are no
longer all there: `realloc` freed the block that `vertex_data` points to, or
gave back its end. -/
theorem Held.not_intact (hs : Held s) {newsize : Int} (hspares : ¬ env.Spares s newsize) :
    (s.setBufferSize env newsize).1 ≠ none ∧ ¬ Intact s (s.setBufferSize env newsize).2 := by
  rw [Resize.Spares] at hspares
  push Not at hspares
  obtain ⟨hpos, hsame, hfailed, hbuffer, hlost⟩ := hspares
  obtain ⟨message, hmessage⟩ := Option.ne_none_iff_exists'.mp hbuffer
  rw [SpriteBatch.setBufferSize, if_neg (not_le.mpr hpos), if_neg hsame, if_neg hfailed, hmessage]
  refine ⟨Option.some_ne_none _, fun hintact => ?_⟩
  have hheld := hintact.vertices
  dsimp only at hheld
  have hb := spriteSize_pos s
  have hsprites := Nat.mul_pos hs.size_pos hb
  by_cases hmoved : env.block = .moved
  · rw [if_pos hmoved] at hheld
    exact absurd hheld (Nat.not_le_of_lt hsprites)
  · rw [if_neg hmoved] at hheld
    have hplace : env.block = .inPlace := by
      cases hblock : env.block with
      | failed => exact absurd hblock hfailed
      | moved => exact absurd hblock hmoved
      | inPlace => rfl
    have hshrunk := hlost hplace
    have hheld : s.size * s.spriteSize ≤ s.spriteSize * newsize.toNat := hheld
    rw [Nat.mul_comm s.size] at hheld
    have := Nat.le_of_mul_le_mul_left hheld hb
    omega

/-- A batch whose changes of the size spare the memory keeps room for its sprites. -/
theorem Held.setBufferSize (hs : Held s) {newsize : Int}
    (hspares : env.Spares s newsize) : Held (s.setBufferSize env newsize).2 := by
  by_cases hthrows : (s.setBufferSize env newsize).1 = none
  · rw [SpriteBatch.setBufferSize] at hthrows ⊢
    by_cases hpos : newsize ≤ 0
    · rw [if_pos hpos]
      exact hs
    by_cases hsame : newsize.toNat = s.size
    · rw [if_neg hpos, if_pos hsame]
      exact hs
    by_cases hfailed : env.block = .failed
    · rw [if_neg hpos, if_neg hsame, if_pos hfailed]
      exact hs
    rw [if_neg hpos, if_neg hsame, if_neg hfailed] at hthrows ⊢
    cases hbuffer : env.newBuffer with
    | some message =>
      rw [hbuffer] at hthrows
      cases hthrows
    | none =>
      refine ⟨?_, le_of_eq (Nat.mul_comm ..)⟩
      show 0 < newsize.toNat
      omega
  · exact (hs.intact hspares hthrows).held hs

/-! ## Runs -/

variable {Q : Type} {sprites : Sprites Q}

/-- The changes of the size in a call spare the memory: `add` and `addLayer` make
one when the batch is full. -/
def SpriteBatchOp.Spares (s : SpriteBatch) : SpriteBatchOp Q → Prop
  | .add env _ index => s.Grows index → env.Spares s s.doubledSize
  | .addLayer env _ _ index => s.Grows index → env.Spares s s.doubledSize
  | .setBufferSize env newsize => env.Spares s newsize.toInt
  | _ => True

theorem Held.congr {s' : SpriteBatch} (hs : Held s) (htexture : s'.texture = s.texture)
    (hsize : s'.size = s.size) (hdata : s'.vertexData.size = s.vertexData.size) : Held s' := by
  refine ⟨hsize ▸ hs.size_pos, ?_⟩
  rw [hsize, hdata, spriteSize_congr htexture]
  exact hs.vertices

theorem Held.place (hs : Held s) {index : Int} {vertices : BitVec 32 → List UInt8}
    (hspares : s.Grows index → env.Spares s s.doubledSize) :
    Held (s.place env index vertices).2 := by
  rw [SpriteBatch.place.eq_def]
  split
  next hindex =>
    split
    next hfull =>
      have hgrown := hs.setBufferSize (hspares ⟨hindex, hfull⟩)
      cases hset : s.setBufferSize env s.doubledSize with
      | mk failed s' =>
        rw [hset] at hgrown
        cases failed with
        | some message => exact hgrown
        | none => exact hgrown.congr rfl rfl rfl
    · exact hs.congr rfl rfl rfl
  · exact hs.congr rfl rfl rfl

theorem Held.addLayer (hs : Held s) {layer : Int} {q : Q} {index : Int}
    (hspares : s.Grows index → env.Spares s s.doubledSize) :
    Held (s.addLayer sprites env layer q index).2 := by
  rw [SpriteBatch.addLayer]
  split_ifs
  · exact hs
  · exact hs
  · exact hs
  · exact hs.place hspares

theorem Held.flush (hs : Held s) : Held s.flush := by
  rw [SpriteBatch.flush.eq_def]
  cases s.upload with
  | none => exact hs
  | some interval => exact hs.congr rfl rfl rfl

theorem Held.draw (hs : Held s) (invalid : Option String) : Held (s.draw invalid).2 := by
  rw [SpriteBatch.draw.eq_def]
  split
  · exact hs
  cases invalid with
  | some message => exact hs
  | none =>
    cases s.attachedAttributes.find? fun a => a.2.buffer.arrayLength < s.next * 4 with
    | some a | none => exact hs.flush

/-- **One call.** -/
theorem spriteBatchStep_held {s' : SpriteBatch} {op : SpriteBatchOp Q} (hs : Held s)
    (hspares : op.Spares s) (h : spriteBatchStep sprites s op = some s') : Held s' := by
  cases op with
  | add env q index =>
    cases h
    rw [SpriteBatch.add]
    split_ifs
    · exact hs.addLayer hspares
    · exact hs
    · exact hs.place hspares
  | addLayer env layer q index =>
    cases h
    exact hs.addLayer hspares
  | clear =>
    cases h
    exact hs.congr rfl rfl rfl
  | setBufferSize env newsize =>
    cases h
    exact hs.setBufferSize hspares
  | attachAttribute name buffer =>
    rw [spriteBatchStep] at h
    cases hattach : s.attachAttribute name buffer with
    | ok s₁ =>
      rw [hattach] at h
      cases h
      obtain ⟨attributes, rfl⟩ := attachAttribute_spec hattach
      exact hs.congr rfl rfl rfl
    | error message =>
      rw [hattach] at h
      cases h
      exact hs
  | setColor color =>
    cases h
    exact hs.congr rfl rfl rfl
  | flush =>
    cases h
    exact hs.flush
  | draw invalid =>
    cases h
    exact hs.draw invalid

/-- **Failed changes of the size.** In every state of every run whose changes of
the size spare the memory, a further one leaves the batch as it was whenever it
throws, just if it spares the memory too. -/
theorem failed_resize_intact_iff {s : SpriteBatch}
    (h : ((spriteBatches sprites).restrict SpriteBatchOp.Spares).Reachable s) (env : Resize)
    (newsize : Int) :
    ((s.setBufferSize env newsize).1 ≠ none → Intact s (s.setBufferSize env newsize).2) ↔
      env.Spares s newsize := by
  have hs : Held s := by
    refine h.invariant_restrict ?_ fun s op s' hs hspares hstep =>
      spriteBatchStep_held hs hspares hstep
    rintro s ⟨texture, size, usage, memory, newBuffer, junk, husage, hnew⟩
    have hup := new_uploaded size.toInt_lt husage hnew
    exact ⟨hup.size_pos, hup.vertices⟩
  constructor
  · intro hintact
    by_contra hspares
    obtain ⟨hthrows, hlost⟩ := hs.not_intact hspares
    exact hlost (hintact hthrows)
  · exact hs.intact

/-- No buffer, and the vertices were moved. -/
def lostResize : Resize := ⟨.moved, fun _ => 0, some "Out of graphics memory", fun _ => 0⟩

/-- No buffer, and the vertices stay where they are. -/
def sparedResize : Resize := { lostResize with block := .inPlace }

theorem failed_resize_intact_small : Intact smallBatch (smallBatch.setBufferSize sparedResize 4).2 := by
  have hreach : ((spriteBatches byteSprites).restrict SpriteBatchOp.Spares).Reachable smallBatch :=
    .init smallBatch_init
  refine (failed_resize_intact_iff hreach sparedResize 4).mpr ?_ (Option.some_ne_none _)
  intro _ _ _ _
  exact ⟨rfl, by decide⟩

/-- The batch still points to the memory that `realloc` gave back. -/
theorem failed_resize_lost : (spriteBatches byteSprites).Reachable smallBatch ∧
    (smallBatch.setBufferSize lostResize 4).1 = some "Out of graphics memory" ∧
    ¬ Intact smallBatch (smallBatch.setBufferSize lostResize 4).2 := by
  refine ⟨.init smallBatch_init, rfl, fun hintact => ?_⟩
  have hheld := hintact.vertices
  revert hheld
  decide

end Lhatove.Graphics
