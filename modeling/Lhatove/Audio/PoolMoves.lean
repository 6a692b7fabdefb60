import Lhatove.Audio.Pool
import Lhatove.Lib.Holders
import Mathlib.Logic.Relation

/-!
# Moves of a pool

Every call on a pool is a series of moves, each about one source. A source that does not
play gets an id (`assigned`), its OpenAL source is prepared (`prepared`), and then it is
valid; it is torn down before its id goes back.

- `View`: all that a device knows of a source;
- `LocalMove`: what happens to a source;
- `Inv`: the state of the pool between two moves;
- `Moves`: series of moves. They keep `Inv`.
-/

namespace Lhatove.Audio

open Function

/-- How far a source that is not valid has come. -/
inductive Phase
  | idle
  | assigned
  | prepared
deriving DecidableEq

/-- A source, its id, the references of others, and what is queued for it. -/
structure View where
  source : Option Source
  id : Option Nat
  owners : Nat
  queued : List Buffer

def View.withSource (s : Source) (v : View) : View := { v with source := some s }

def View.withQueued (q : List Buffer) (v : View) : View := { v with queued := q }

/-- The moves of a source. `account` says whether buffers are to be kept account of. -/
inductive LocalMove (account : Prop) : Phase → View → Phase → View → Prop
  | skip (φ : Phase) (v : View) : LocalMove account φ v φ v
  | add (s : Source) (n : Nat) : s.count = 1 → s.valid = false → (account → s.Accounted []) →
    LocalMove account .idle ⟨none, none, n, []⟩ .idle ⟨some s, none, 1, []⟩
  | own (φ : Phase) (s : Source) (id : Option Nat) (n : Nat) (q : List Buffer) :
    LocalMove account φ ⟨some s, id, n, q⟩ φ ⟨some { s with count := s.count + 1 }, id, n + 1, q⟩
  | disown (φ : Phase) (s : Source) (id : Option Nat) (n : Nat) (q : List Buffer) :
    s.count ≠ 1 →
    LocalMove account φ ⟨some s, id, n + 1, q⟩ φ ⟨some { s with count := s.count - 1 }, id, n, q⟩
  | destroy (s : Source) : LocalMove account .idle ⟨some s, none, 1, []⟩ .idle ⟨none, none, 0, []⟩
  | change (φ : Phase) (s s' : Source) (id : Option Nat) (n : Nat) (q q' : List Buffer) :
    s.SameHandle s' → (s.valid = false → q' = q) →
    (account → s.Accounted q → s'.Accounted q') →
    LocalMove account φ ⟨some s, id, n, q⟩ φ ⟨some s', id, n, q'⟩
  | assign (s : Source) (id n : Nat) :
    LocalMove account .idle ⟨some s, none, n, []⟩ .assigned
      ⟨some { s with count := s.count + 1 }, some id, n, []⟩
  | prepare (s : Source) (id n : Nat) (chunks : List Chunk) :
    LocalMove account .assigned ⟨some s, some id, n, []⟩ .prepared
      ⟨some ({ s with source := id }.prepareAtomic chunks).1, some id, n,
        ({ s with source := id }.prepareAtomic chunks).2⟩
  | start (s : Source) (id n : Nat) (q : List Buffer) :
    LocalMove account .prepared ⟨some s, some id, n, q⟩ .idle
      ⟨some { s with valid := true }, some id, n, q⟩
  | teardown (s : Source) (id n : Nat) (q : List Buffer) : s.valid = true →
    (account → s.sourceType = .queue → q = []) →
    LocalMove account .idle ⟨some s, some id, n, q⟩ .assigned
      ⟨some (s.teardownAtomic q), some id, n, []⟩
  | giveBack (s : Source) (id n : Nat) : s.count ≠ 1 →
    LocalMove account .assigned ⟨some s, some id, n, []⟩ .idle
      ⟨some { s with count := s.count - 1 }, none, n, []⟩
  | giveBackLast (s : Source) (id n : Nat) : s.count = 1 →
    LocalMove account .assigned ⟨some s, some id, n, []⟩ .idle ⟨none, none, n, []⟩

/-- The state of a source between two moves. -/
structure KeyInv (φ : Phase) (v : View) : Prop where
  gone : v.source = none → v.id = none ∧ v.owners = 0
  phase : φ ≠ .idle → v.id ≠ none
  count : ∀ s, v.source = some s →
    s.count = v.owners + (if v.id = none then 0 else 1) ∧ 0 < s.count
  valid : ∀ s, v.source = some s → (s.valid = true ↔ v.id ≠ none ∧ φ = .idle)
  source : ∀ s id, v.source = some s → v.id = some id → φ ≠ .assigned → s.source = id
  queued : v.id = none ∨ φ = .assigned → v.queued = []

theorem LocalMove.keyInv {A : Prop} {φ φ' : Phase} {v v' : View}
    (hmove : LocalMove A φ v φ' v') (h : KeyInv φ v) : KeyInv φ' v' := by
  obtain ⟨hgone, hphase, hcount, hvalid, hsource, hqueued⟩ := h
  cases hmove with
  | skip => exact ⟨hgone, hphase, hcount, hvalid, hsource, hqueued⟩
  | add s n hone hnot haccounted =>
    refine ⟨by simp, by simp, ?_, ?_, by simp, fun _ => rfl⟩
    · rintro _ ⟨⟩
      simp [hone]
    · rintro _ ⟨⟩
      simp [hnot]
  | own _ s id n q =>
    refine ⟨by simp, hphase, ?_, ?_, ?_, hqueued⟩
    · rintro _ ⟨⟩
      obtain ⟨hs, hpos⟩ := hcount s rfl
      exact ⟨by dsimp only at hs ⊢; omega, Nat.succ_pos _⟩
    · rintro _ ⟨⟩
      exact hvalid s rfl
    · rintro _ id ⟨⟩
      exact hsource s id rfl
  | disown _ s id n q hmany =>
    refine ⟨by simp, hphase, ?_, ?_, ?_, hqueued⟩
    · rintro _ ⟨⟩
      obtain ⟨hs, hpos⟩ := hcount s rfl
      exact ⟨by dsimp only at hs ⊢; omega, by dsimp only at hs ⊢; omega⟩
    · rintro _ ⟨⟩
      exact hvalid s rfl
    · rintro _ id ⟨⟩
      exact hsource s id rfl
  | destroy s => exact ⟨by simp, by simp, by simp, by simp, by simp, fun _ => rfl⟩
  | change _ s s' id n q q' hsame hfixed haccounted =>
    refine ⟨by simp, hphase, ?_, ?_, ?_, ?_⟩
    · rintro _ ⟨⟩
      rw [hsame.count]
      exact hcount s rfl
    · rintro _ ⟨⟩
      rw [hsame.valid]
      exact hvalid s rfl
    · rintro _ id ⟨⟩
      rw [hsame.source]
      exact hsource s id rfl
    · intro hnot
      have hs := hvalid s rfl
      have hq : q = [] := hqueued hnot
      rw [← hq]
      refine hfixed (Bool.eq_false_of_not_eq_true fun htrue => ?_)
      obtain ⟨hid, hidle⟩ := hs.mp htrue
      rcases hnot with hnone | hassigned
      · exact hid hnone
      · rw [hidle] at hassigned
        cases hassigned
  | assign s id n =>
    refine ⟨by simp, by simp, ?_, ?_, by simp, fun _ => rfl⟩
    · rintro _ ⟨⟩
      obtain ⟨hs, hpos⟩ := hcount s rfl
      simp only [if_true] at hs
      simp [hs]
    · rintro _ ⟨⟩
      have hs := hvalid s rfl
      simp only [ne_eq, not_true_eq_false, false_and, iff_false] at hs
      simp [hs]
  | prepare s id n chunks =>
    have hsame := Source.prepareAtomic_same (s := { s with source := id }) chunks
    refine ⟨by simp, by simp, ?_, ?_, ?_, by simp⟩
    · rintro _ ⟨⟩
      rw [hsame.count]
      exact hcount s rfl
    · rintro _ ⟨⟩
      rw [hsame.valid]
      have hs := hvalid s rfl
      simpa using hs
    · rintro _ _ ⟨⟩ ⟨⟩ -
      exact hsame.source
  | start s id n q =>
    refine ⟨by simp, by simp, ?_, by simp, ?_, by simp⟩
    · rintro _ ⟨⟩
      exact hcount s rfl
    · rintro _ _ ⟨⟩ hid -
      exact hsource s _ rfl hid (by simp)
  | teardown s id n q htrue hdrained =>
    refine ⟨by simp, by simp, ?_, ?_, by simp, fun _ => rfl⟩
    · rintro _ ⟨⟩
      rw [Source.teardownAtomic_count]
      exact hcount s rfl
    · rintro _ ⟨⟩
      simp [Source.teardownAtomic_valid]
  | giveBack s id n hmany =>
    refine ⟨by simp, by simp, ?_, ?_, by simp, fun _ => rfl⟩
    · rintro _ ⟨⟩
      obtain ⟨hs, hpos⟩ := hcount s rfl
      simp only [reduceCtorEq, if_false] at hs
      simp only [if_true]
      omega
    · rintro _ ⟨⟩
      have hs := hvalid s rfl
      simpa using hs
  | giveBackLast s id n hone =>
    obtain ⟨hs, -⟩ := hcount s rfl
    simp only [reduceCtorEq, if_false] at hs
    refine ⟨fun _ => ⟨rfl, by dsimp only; omega⟩, by simp, by simp, by simp, by simp, fun _ => rfl⟩

theorem Source.Accounted.with_handle {s : Source} {q : List Buffer} (h : s.Accounted q)
    (count source : Nat) (valid : Bool) :
    Source.Accounted { s with count, source, valid } q :=
  ⟨h.all_perm, h.generated_nodup, h.generated_static, h.bytes_eq, h.bytes_lt, h.looping⟩

theorem LocalMove.accounted {A : Prop} {φ φ' : Phase} {v v' : View}
    (hmove : LocalMove A φ v φ' v') (haccount : A)
    (h : ∀ s, v.source = some s → s.Accounted v.queued) :
    ∀ s, v'.source = some s → s.Accounted v'.queued := by
  cases hmove with
  | skip => exact h
  | add s n hone hnot haccounted =>
    rintro _ ⟨⟩
    exact haccounted haccount
  | own _ s id n q =>
    rintro _ ⟨⟩
    exact (h s rfl).with_handle _ _ _
  | disown _ s id n q hmany =>
    rintro _ ⟨⟩
    exact (h s rfl).with_handle _ _ _
  | destroy s =>
    rintro _ ⟨⟩
  | change _ s s' id n q q' hsame hfixed haccounted =>
    rintro _ ⟨⟩
    exact haccounted haccount (h s rfl)
  | assign s id n =>
    rintro _ ⟨⟩
    exact (h s rfl).with_handle _ _ _
  | prepare s id n chunks =>
    rintro _ ⟨⟩
    exact Source.prepareAtomic_accounted ((h s rfl).with_handle s.count id s.valid) chunks
  | start s id n q =>
    rintro _ ⟨⟩
    exact (h s rfl).with_handle _ _ _
  | teardown s id n q htrue hdrained =>
    rintro _ ⟨⟩
    exact Source.teardownAtomic_accounted (h s rfl) (hdrained haccount)
  | giveBack s id n hmany =>
    rintro _ ⟨⟩
    exact (h s rfl).with_handle _ _ _
  | giveBackLast s id n hone =>
    rintro _ ⟨⟩

namespace Device

/-- What a device knows of a source. -/
def view (d : Device) (k : Nat) : View where
  source := d.heap k
  id := d.pool.playing.lookup k
  owners := d.owners k
  queued := match d.pool.playing.lookup k with
    | none => []
    | some id => d.queued id

end Device

/-- The ids of the sources that play. -/
def Pool.assigned (pool : Pool) : List Nat := held (fun id : Nat => id) pool.playing

/-- The ids of a pool are available or assigned, each once. -/
structure Pool.Ids (pool : Pool) : Prop where
  perm : (pool.available ++ pool.assigned).Perm pool.sources
  nodup : pool.sources.Nodup

/-- A point between two moves: the phases of the sources, and the device. -/
structure Point where
  phase : Nat → Phase
  device : Device

/-- The state of the pool between two moves. Nothing is queued for an available id. -/
structure Inv (p : Point) : Prop where
  ids : p.device.pool.Ids
  clear : ∀ id ∈ p.device.pool.available, p.device.queued id = []
  used : p.device.misused = false
  key : ∀ k, KeyInv (p.phase k) (p.device.view k)

/-- A move: of one source. The pool keeps its state. -/
structure Move (account : Prop) (p p' : Point) : Prop where
  moved : ∃ k,
    LocalMove account (p.phase k) (p.device.view k) (p'.phase k) (p'.device.view k) ∧
      ∀ j ≠ k, p'.phase j = p.phase j ∧ p'.device.view j = p.device.view j
  ids : p'.device.pool.Ids
  clear : ∀ id ∈ p'.device.pool.available, p'.device.queued id = []
  used : p'.device.misused = false
  sources : p'.device.pool.sources = p.device.pool.sources

/-- Moves, one after the other. -/
def Moves (account : Prop) : Point → Point → Prop := Relation.ReflTransGen (Move account)

section Invariant

variable {A : Prop} {p p' : Point}

theorem Move.inv (hmove : Move A p p') (h : Inv p) : Inv p' := by
  refine ⟨hmove.ids, hmove.clear, hmove.used, ?_⟩
  obtain ⟨k, hlocal, hframe⟩ := hmove.moved
  intro j
  by_cases hj : j = k
  · subst hj
    exact hlocal.keyInv (h.key j)
  · obtain ⟨hphase, hview⟩ := hframe j hj
    rw [hphase, hview]
    exact h.key j

theorem Moves.inv (hmoves : Moves A p p') (h : Inv p) : Inv p' := by
  induction hmoves with
  | refl => exact h
  | tail _ hmove ih => exact hmove.inv ih

/-- The buffers of all sources are accounted for. -/
def Device.AllAccounted (d : Device) : Prop :=
  ∀ k s, d.heap k = some s → s.Accounted (d.view k).queued

theorem Moves.allAccounted (hmoves : Moves A p p') (haccount : A)
    (h : p.device.AllAccounted) : p'.device.AllAccounted := by
  induction hmoves with
  | refl => exact h
  | tail _ hmove ih =>
    obtain ⟨k, hlocal, hframe⟩ := hmove.moved
    intro j
    by_cases hj : j = k
    · subst hj
      exact hlocal.accounted haccount (ih j)
    · have hsource := congrArg View.source (hframe j hj).2
      change Device.heap _ j = Device.heap _ j at hsource
      rw [hsource, (hframe j hj).2]
      exact ih j

theorem Moves.sources (hmoves : Moves A p p') :
    p'.device.pool.sources = p.device.pool.sources := by
  induction hmoves with
  | refl => rfl
  | tail _ hmove ih => exact hmove.sources.trans ih

theorem Move.moves (hmove : Move A p p') : Moves A p p' :=
  .single hmove

theorem Pool.Ids.injective {pool : Pool} (h : pool.Ids) {j k id : Nat}
    (hj : pool.playing.lookup j = some id) (hk : pool.playing.lookup k = some id) : j = k := by
  have hnodup := h.perm.nodup_iff.mpr h.nodup
  exact held_injective (List.nodup_append.mp hnodup).2.1 hk hj rfl

theorem Pool.Ids.unassigned {pool : Pool} (h : pool.Ids) {k id : Nat}
    (hid : id ∈ pool.available) : pool.playing.lookup k ≠ some id := by
  intro hk
  have hnodup := h.perm.nodup_iff.mpr h.nodup
  exact (List.nodup_append.mp hnodup).2.2 _ hid _ (mem_held hk) rfl

end Invariant

/-! ## Parts of a device -/

namespace Device

section Parts

variable {d : Device} {j k id : Nat} {s : Source} {q : List Buffer}

@[simp] theorem setSource_pool : (d.setSource k s).pool = d.pool := rfl
@[simp] theorem setSource_queued : (d.setSource k s).queued = d.queued := rfl
@[simp] theorem setSource_owners : (d.setSource k s).owners = d.owners := rfl
@[simp] theorem setSource_misused : (d.setSource k s).misused = d.misused := rfl
@[simp] theorem setSource_heap : (d.setSource k s).heap = Function.update d.heap k (some s) := rfl
@[simp] theorem setQueued_pool : (d.setQueued id q).pool = d.pool := rfl
@[simp] theorem setQueued_heap : (d.setQueued id q).heap = d.heap := rfl
@[simp] theorem setQueued_owners : (d.setQueued id q).owners = d.owners := rfl
@[simp] theorem setQueued_misused : (d.setQueued id q).misused = d.misused := rfl
@[simp] theorem setQueued_queued :
    (d.setQueued id q).queued = Function.update d.queued id q := rfl

theorem useSource_some {f : Source → Device} (h : d.heap k = some s) : d.useSource k f = f s := by
  rw [useSource, h]

theorem view_setSource : (d.setSource k s).view k = (d.view k).withSource s := by
  simp [view, View.withSource]

theorem view_setSource_ne (h : j ≠ k) : (d.setSource k s).view j = d.view j := by
  simp [view, h]

theorem view_setQueued (h : d.pool.playing.lookup k = some id) :
    (d.setQueued id q).view k = (d.view k).withQueued q := by
  simp [view, View.withQueued, h]

theorem view_setQueued_ne (h : d.pool.playing.lookup j ≠ some id) :
    (d.setQueued id q).view j = d.view j := by
  simp only [view, setQueued_heap, setQueued_pool, setQueued_owners, setQueued_queued]
  cases hj : d.pool.playing.lookup j with
  | none => rfl
  | some id' =>
    have hne : id' ≠ id := by
      rintro rfl
      exact h hj
    simp [hne]

end Parts

theorem view_playing {d : Device} {k id : Nat} {s : Source} (hs : d.heap k = some s)
    (hid : d.pool.playing.lookup k = some id) :
    d.view k = ⟨some s, some id, d.owners k, d.queued id⟩ := by
  simp [view, hs, hid]

theorem view_stopped {d : Device} {k : Nat} {s : Source} (hs : d.heap k = some s)
    (hid : d.pool.playing.lookup k = none) :
    d.view k = ⟨some s, none, d.owners k, []⟩ := by
  simp [view, hs, hid]

end Device

/-! ## The moves of a device -/

section Primitives

open Device

variable {A : Prop} {p : Point} {k id : Nat} {s s' : Source} {q : List Buffer} {φ : Phase}

theorem move_setSource (h : Inv p)
    (hlocal : LocalMove A (p.phase k) (p.device.view k) φ
      ((p.device.view k).withSource s)) :
    Move A p ⟨Function.update p.phase k φ, p.device.setSource k s⟩ := by
  refine ⟨⟨k, ?_, ?_⟩, h.ids, h.clear, h.used, rfl⟩
  · change LocalMove A _ _ (Function.update p.phase k φ k)
      ((p.device.setSource k s).view k)
    rw [view_setSource, update_self]
    exact hlocal
  · intro j hj
    exact ⟨update_of_ne hj _ _, view_setSource_ne hj⟩

theorem move_setQueued (h : Inv p) (hid : p.device.pool.playing.lookup k = some id)
    (hlocal : LocalMove A (p.phase k) (p.device.view k) φ
      (((p.device.view k).withSource s).withQueued q)) :
    Move A p ⟨Function.update p.phase k φ, (p.device.setSource k s).setQueued id q⟩ := by
  refine ⟨⟨k, ?_, ?_⟩, h.ids, ?_, h.used, rfl⟩
  · change LocalMove A _ _ (Function.update p.phase k φ k)
      (((p.device.setSource k s).setQueued id q).view k)
    rw [view_setQueued (d := p.device.setSource k s) hid, view_setSource, update_self]
    exact hlocal
  · intro j hj
    have hne : p.device.pool.playing.lookup j ≠ some id := fun heq =>
      hj (h.ids.injective heq hid)
    exact ⟨update_of_ne hj _ _,
      (view_setQueued_ne (d := p.device.setSource k s) hne).trans (view_setSource_ne hj)⟩
  · intro id' hid'
    have hne : id' ≠ id := by
      rintro rfl
      exact h.ids.unassigned hid' hid
    rw [setQueued_queued, update_of_ne hne]
    exact h.clear id' hid'

theorem move_start (h : Inv p) (hs : p.device.heap k = some s)
    (hid : p.device.pool.playing.lookup k = some id) (hphase : p.phase k = .prepared) :
    Move A p ⟨Function.update p.phase k .idle, p.device.setValid k true⟩ := by
  rw [setValid, useSource_some hs]
  refine move_setSource h ?_
  rw [hphase, view_playing hs hid]
  exact .start s id _ _

theorem move_prepare (h : Inv p) (hs : p.device.heap k = some s)
    (hid : p.device.pool.playing.lookup k = some id) (hphase : p.phase k = .assigned)
    (chunks : List Chunk) :
    Move A p ⟨Function.update p.phase k .prepared, p.device.prepare k id chunks⟩ := by
  rw [prepare, useSource_some hs]
  refine move_setQueued h hid ?_
  have hqueued := (h.key k).queued (.inr hphase)
  rw [view_playing hs hid] at hqueued ⊢
  rw [hphase, show p.device.queued id = [] from hqueued]
  exact .prepare s id _ chunks

theorem move_teardown (h : Inv p) (hs : p.device.heap k = some s) (hvalid : s.valid = true)
    (hdrained : A → s.sourceType = .queue → p.device.queued s.source = []) :
    Move A p ⟨Function.update p.phase k .assigned, p.device.teardownAtomic k s⟩ := by
  obtain ⟨hplaying, hphase⟩ := ((h.key k).valid s hs).mp hvalid
  obtain ⟨id, hid⟩ := Option.ne_none_iff_exists'.mp hplaying
  have hsource : s.source = id := (h.key k).source s id hs hid (by rw [hphase]; decide)
  rw [Device.teardownAtomic, hsource]
  rw [hsource] at hdrained
  refine move_setQueued h hid ?_
  rw [hphase, view_playing hs hid]
  exact .teardown s id _ _ hvalid hdrained

theorem view_teardown_ne {d : Device} {j : Nat} (h : d.pool.Ids)
    (hid : d.pool.playing.lookup k = some s.source) (hj : j ≠ k) :
    (d.teardownAtomic k s).view j = d.view j := by
  rw [Device.teardownAtomic, view_setQueued_ne, view_setSource_ne hj]
  exact fun heq => hj (h.injective heq hid)

theorem move_change (h : Inv p) (hs : p.device.heap k = some s) (hsame : s.SameHandle s')
    (haccounted : A → s.Accounted (p.device.view k).queued →
      s'.Accounted (p.device.view k).queued) :
    Move A p ⟨p.phase, p.device.setSource k s'⟩ := by
  have hmove := move_setSource (A := A) (k := k) (φ := p.phase k) (s := s') h ?_
  · rw [update_eq_self] at hmove
    exact hmove
  · cases hview : p.device.view k with
    | mk source id owners queued =>
      have : source = some s := by
        rw [← hs]
        exact (congrArg View.source hview).symm
      subst this
      rw [hview] at haccounted
      exact .change _ s s' id owners queued queued hsame (fun _ => rfl) haccounted

theorem move_changeQueued (h : Inv p) (hs : p.device.heap k = some s) (hvalid : s.valid = true)
    (hsame : s.SameHandle s')
    (haccounted : A → s.Accounted (p.device.queued s.source) → s'.Accounted q) :
    Move A p ⟨p.phase, (p.device.setSource k s').setQueued s.source q⟩ := by
  obtain ⟨hplaying, hphase⟩ := ((h.key k).valid s hs).mp hvalid
  obtain ⟨id, hid⟩ := Option.ne_none_iff_exists'.mp hplaying
  have hsource : s.source = id := (h.key k).source s id hs hid (by rw [hphase]; decide)
  rw [hsource] at haccounted ⊢
  have hmove := move_setQueued (A := A) (φ := p.phase k) (s := s') (q := q) h hid ?_
  · rw [update_eq_self] at hmove
    exact hmove
  · rw [view_playing hs hid]
    refine .change _ s s' _ _ _ q hsame (fun hfalse => ?_) haccounted
    rw [hvalid] at hfalse
    cases hfalse

theorem move_setPool (h : Inv p) {pool : Pool} (hsources : pool.sources = p.device.pool.sources)
    (havailable : pool.available = p.device.pool.available)
    (hplaying : pool.playing = p.device.pool.playing) :
    Move A p ⟨p.phase, p.device.setPool pool⟩ := by
  have hview : ∀ k, (p.device.setPool pool).view k = p.device.view k := by
    intro k
    simp only [view, setPool, hplaying]
  refine ⟨⟨0, ?_, fun j _ => ⟨rfl, hview j⟩⟩, ?_, ?_, h.used, hsources⟩
  · rw [hview]
    exact .skip _ _
  · constructor
    · change (pool.available ++ held (fun id : Nat => id) pool.playing).Perm pool.sources
      rw [havailable, hplaying, hsources]
      exact h.ids.perm
    · change pool.sources.Nodup
      rw [hsources]
      exact h.ids.nodup
  · intro id hid
    change id ∈ pool.available at hid
    rw [havailable] at hid
    exact h.clear id hid

theorem takeId_eq {d : Device} {available : List Nat} (hs : d.heap k = some s) :
    d.takeId k id available =
      (d.setPool ⟨d.pool.sources, available, d.pool.playing.insert k id,
        d.pool.disconnectNotified⟩).setSource k { s with count := s.count + 1 } :=
  useSource_some hs

theorem assignSource_fresh {d : Device} {available : List Nat}
    (hid : d.pool.playing.lookup k = none) (havailable : d.pool.available = id :: available) :
    d.assignSource k = (some (id, false), d.takeId k id available) := by
  rw [assignSource, hid, havailable]

theorem move_takeId (h : Inv p) {available : List Nat} (hs : p.device.heap k = some s)
    (hid : p.device.pool.playing.lookup k = none)
    (havailable : p.device.pool.available = id :: available) :
    Move A p
      ⟨Function.update p.phase k .assigned, p.device.takeId k id available⟩ := by
  have hidle : p.phase k = .idle := by
    by_contra hphase
    exact (h.key k).phase hphase hid
  have hclear : p.device.queued id = [] := h.clear id (by rw [havailable]; exact List.mem_cons_self)
  rw [takeId_eq hs]
  refine ⟨⟨k, ?_, ?_⟩, ?_, ?_, h.used, rfl⟩
  · dsimp only
    rw [update_self, hidle, view_stopped hs hid, view_setSource, View.withSource]
    simp only [view, setPool, AList.lookup_insert, hclear]
    exact .assign s id _
  · intro j hj
    refine ⟨update_of_ne hj _ _, (view_setSource_ne hj).trans ?_⟩
    simp only [view, setPool, AList.lookup_insert_ne hj]
  · constructor
    · change (available ++ held (fun id : Nat => id) (p.device.pool.playing.insert k id)).Perm _
      have hperm := h.ids.perm
      rw [havailable] at hperm
      rw [held_insert hid]
      exact List.perm_middle.trans hperm
    · exact h.ids.nodup
  · intro id' hid'
    refine h.clear id' ?_
    rw [havailable]
    exact List.mem_cons_of_mem _ hid'

/-- What is left of a source once the pool has released it. -/
def released (s : Source) : Option Source :=
  if s.count = 1 then none else some { s with count := s.count - 1 }

theorem release_invalid {d : Device} (hs : d.heap k = some s) (hvalid : s.valid = false) :
    d.release k = { d with heap := Function.update d.heap k (released s) } := by
  rw [release, useSource_some hs, released]
  split
  · rw [destroy, hvalid]
    rfl
  · rfl

theorem view_giveBack_ne {d : Device} {j : Nat} (hs : d.heap k = some s) (hvalid : s.valid = false)
    (hj : j ≠ k) : ((d.release k).giveBack k id).view j = d.view j := by
  rw [release_invalid hs hvalid]
  simp only [view, giveBack, setPool, AList.lookup_erase_ne hj, update_of_ne hj]

/-- The id of a source that is torn down, or was not prepared, goes back to the pool. -/
theorem move_giveBack (h : Inv p) (hs : p.device.heap k = some s)
    (hid : p.device.pool.playing.lookup k = some id) (hphase : p.phase k = .assigned) :
    Move A p
      ⟨Function.update p.phase k .idle, (p.device.release k).giveBack k id⟩ := by
  have hvalid : s.valid = false := by
    refine Bool.eq_false_of_not_eq_true fun htrue => ?_
    have := (((h.key k).valid s hs).mp htrue).2
    rw [hphase] at this
    cases this
  have hqueued := (h.key k).queued (.inr hphase)
  rw [view_playing hs hid] at hqueued
  have hothers := fun j hj => @view_giveBack_ne k id s p.device j hs hvalid hj
  rw [release_invalid hs hvalid] at hothers ⊢
  refine ⟨⟨k, ?_, fun j hj => ⟨update_of_ne hj _ _, hothers j hj⟩⟩, ?_, ?_, h.used, rfl⟩
  · have hview : (giveBack k id { p.device with
        heap := Function.update p.device.heap k (released s) }).view k =
          ⟨released s, none, p.device.owners k, []⟩ := by
      simp [view, giveBack, setPool]
    dsimp only
    rw [hview, update_self, hphase, view_playing hs hid, released,
      show p.device.queued id = [] from hqueued]
    split
    · exact .giveBackLast s id _ ‹_›
    · exact .giveBack s id _ ‹_›
  · constructor
    · change (p.device.pool.available ++ [id] ++
        held (fun id : Nat => id) (p.device.pool.playing.erase k)).Perm _
      refine .trans ?_ h.ids.perm
      rw [List.append_assoc]
      exact (held_erase (f := fun id : Nat => id) hid).symm.append_left _
    · exact h.ids.nodup
  · intro id' hid'
    rcases List.mem_append.mp hid' with hold | hnew
    · exact h.clear id' hold
    · rw [List.mem_singleton.mp hnew]
      exact hqueued

/-! ### References of others -/

theorem move_owners (h : Inv p) {heap : Option Source} {n : Nat}
    (hlocal : LocalMove A (p.phase k) (p.device.view k) (p.phase k)
      ⟨heap, (p.device.view k).id, n, (p.device.view k).queued⟩) :
    Move A p ⟨p.phase, { p.device with
      heap := Function.update p.device.heap k heap
      owners := Function.update p.device.owners k n }⟩ := by
  refine ⟨⟨k, ?_, ?_⟩, h.ids, h.clear, h.used, rfl⟩
  · have hview : ({ p.device with
        heap := Function.update p.device.heap k heap
        owners := Function.update p.device.owners k n } : Device).view k =
          ⟨heap, (p.device.view k).id, n, (p.device.view k).queued⟩ := by
      simp [view]
    rw [hview]
    exact hlocal
  · intro j hj
    refine ⟨rfl, ?_⟩
    simp only [view, update_of_ne hj]

theorem view_some {d : Device} (hs : d.heap k = some s) :
    d.view k = ⟨some s, (d.view k).id, d.owners k, (d.view k).queued⟩ := by
  rw [← hs]
  rfl

theorem move_own (h : Inv p) (hs : p.device.heap k = some s) :
    Move A p
      ⟨p.phase, (p.device.retain k).setOwners k (p.device.owners k + 1)⟩ := by
  rw [retain, useSource_some hs]
  refine move_owners h ?_
  rw [view_some hs]
  exact .own _ s _ _ _

theorem move_disown (h : Inv p) (hs : p.device.heap k = some s) (howner : 0 < p.device.owners k) :
    Move A p
      ⟨p.phase, (p.device.setOwners k (p.device.owners k - 1)).release k⟩ := by
  obtain ⟨hcount, -⟩ := (h.key k).count s hs
  have hs' : (p.device.setOwners k (p.device.owners k - 1)).heap k = some s := hs
  change s.count = p.device.owners k + _ at hcount
  by_cases hone : s.count = 1
  · have hid : (p.device.view k).id = none := by
      by_contra hne
      rw [if_neg hne] at hcount
      omega
    have hn : p.device.owners k = 1 := by
      omega
    have hvalid : s.valid = false := by
      refine Bool.eq_false_of_not_eq_true fun htrue => ?_
      exact (((h.key k).valid s hs).mp htrue).1 hid
    have hidle : p.phase k = .idle := by
      by_contra hphase
      exact (h.key k).phase hphase hid
    rw [release_invalid hs' hvalid, released, if_pos hone, hn]
    refine move_owners h ?_
    rw [hidle, view_stopped hs hid, hn]
    exact .destroy s
  · rw [release, useSource_some hs', if_neg hone]
    refine move_owners h ?_
    obtain ⟨n, hn⟩ : ∃ n, p.device.owners k = n + 1 := ⟨p.device.owners k - 1, by omega⟩
    rw [view_some hs, hn]
    exact .disown _ s _ n _ hone

theorem move_add (h : Inv p) (hnone : p.device.heap k = none) (hcount : s.count = 1)
    (hvalid : s.valid = false) (haccounted : A → s.Accounted []) :
    Move A p ⟨p.phase, p.device.addSource k s⟩ := by
  obtain ⟨hid, howners⟩ := (h.key k).gone hnone
  have hidle : p.phase k = .idle := by
    by_contra hphase
    exact (h.key k).phase hphase hid
  have hview : p.device.view k = ⟨none, none, 0, []⟩ := by
    change p.device.pool.playing.lookup k = none at hid
    change p.device.owners k = 0 at howners
    simp [view, hnone, hid, howners]
  refine move_owners h ?_
  rw [hidle, hview]
  exact .add s 0 hcount hvalid haccounted

end Primitives

end Lhatove.Audio
