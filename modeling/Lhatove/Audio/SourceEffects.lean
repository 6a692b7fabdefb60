import Lhatove.Lib.Holders
import Lhatove.Lib.Transition

/-!
# Effects of a source

`openal::Source::setEffect`, `unsetEffect` and the copy constructor, as far as they go
about the auxiliary sends of a source: each effect has one of the `maxSends` slots that
the audio module has for every source.

- `Source`: the effects by their names, and the stack of free slots;
- `sources`: calls on any of the sources that there are;
- `Consistent`: what holds of the slots;
- `clone_allSlots_iff`: of which sources a copy keeps it;
- `effects_consistent`: in which runs all sources do.

What OpenAL is told about the effects of a source that plays is left out.
-/

namespace Lhatove.Audio.Effects

open List

/-- `EffectMapStorage`. A filter is what was set last for it. -/
structure EffectMapStorage (Params : Type) where
  filter : Option Params
  slot : Nat
  target : Nat

/-- The effects of a source. -/
structure Source (Params : Type) where
  effectmap : AList fun _ : String => EffectMapStorage Params
  slotlist : List Nat

variable {Params : Type}

namespace Source

/-- `slotlist`, once the numbers below `maxSends` were pushed. -/
def allSlots (maxSends : Nat) : List Nat := (List.range maxSends).reverse

/-- The constructors, of whatever type of source. -/
def new (maxSends : Nat) : Source Params := ⟨∅, allSlots maxSends⟩

/-- `setEffect` without a filter. `id` is what `getEffectID` finds. -/
def setEffect (name : String) (id : Option Nat) (s : Source Params) : Bool × Source Params :=
  match id with
  | none => (false, s)
  | some target =>
    match s.effectmap.lookup name with
    | none =>
      match s.slotlist with
      | [] => (false, s)
      | slot :: slotlist => (true, ⟨s.effectmap.insert name ⟨none, slot, target⟩, slotlist⟩)
    | some effect =>
      (true, { s with effectmap := s.effectmap.insert name ⟨none, effect.slot, target⟩ })

/-- `setEffect` with a filter. `created` is whether OpenAL creates a filter when there
is none: it throws otherwise, and has taken the slot. -/
def setEffectParams (name : String) (id : Option Nat) (params : Params) (created : Bool)
    (s : Source Params) : Except (Source Params) (Bool × Source Params) :=
  match id with
  | none => .ok (false, s)
  | some target =>
    match s.effectmap.lookup name with
    | none =>
      match s.slotlist with
      | [] => .ok (false, s)
      | slot :: slotlist =>
        if created then
          .ok (true, ⟨s.effectmap.insert name ⟨some params, slot, target⟩, slotlist⟩)
        else .error { s with slotlist }
    | some effect =>
      if effect.filter.isSome || created then
        .ok (true,
          { s with effectmap := s.effectmap.insert name ⟨some params, effect.slot, target⟩ })
      else .error s

def unsetEffect (name : String) (s : Source Params) : Bool × Source Params :=
  match s.effectmap.lookup name with
  | none => (false, s)
  | some effect => (true, ⟨s.effectmap.erase name, effect.slot :: s.slotlist⟩)

/-- The loop of the copy constructor "filter out already taken slots", for a slot. -/
def pushesSlot (s : Source Params) : Bool :=
  s.effectmap.entries.all fun e => decide (e.2.slot = 0)

/-- The copy constructor: `clone`. -/
def clone (maxSends : Nat) (s : Source Params) : Source Params where
  effectmap := s.effectmap
  slotlist := ((List.range maxSends).filter fun _ => s.pushesSlot).reverse

/-- The slots of the effects. -/
def slots (s : Source Params) : List Nat := s.effectmap.entries.map fun e => e.2.slot

end Source

/-! ## Runs -/

inductive SourceOp (Params : Type)
  | new
  | setEffect (k : Nat) (name : String) (id : Option Nat)
  | setEffectParams (k : Nat) (name : String) (id : Option Nat) (params : Params) (created : Bool)
  | unsetEffect (k : Nat) (name : String)
  | clone (k : Nat) (created : Bool)

/-- A call on source `k` of those that there are. A clone whose filters cannot be created
is none. -/
def step (maxSends : Nat) (sources : List (Source Params)) :
    SourceOp Params → Option (List (Source Params))
  | .new => some (sources ++ [.new maxSends])
  | .setEffect k name id =>
    sources[k]?.map fun s => sources.set k (s.setEffect name id).2
  | .setEffectParams k name id params created =>
    sources[k]?.map fun s =>
      match s.setEffectParams name id params created with
      | .ok (_, s) => sources.set k s
      | .error s => sources.set k s
  | .unsetEffect k name => sources[k]?.map fun s => sources.set k (s.unsetEffect name).2
  | .clone k created =>
    sources[k]?.map fun s => if created then sources ++ [s.clone maxSends] else sources

/-- Calls on sources, in any order. -/
def sources (maxSends : Nat) : System (List (Source Params)) (SourceOp Params) :=
  System.ofStep (fun l => l = []) (step maxSends)

/-- **The slots of a source**: the effects have different ones below `maxSends`, and the
stack has all others, each once. -/
structure Consistent (maxSends : Nat) (s : Source Params) : Prop where
  slots_nodup : s.slots.Nodup
  slots_lt : ∀ slot ∈ s.slots, slot < maxSends
  slotlist_nodup : s.slotlist.Nodup
  mem_slotlist : ∀ slot, slot ∈ s.slotlist ↔ slot < maxSends ∧ slot ∉ s.slots

/-! ## One source -/

section Slots

variable {maxSends : Nat} {s : Source Params} {name : String}

/-- Every slot is taken or free. -/
def Source.AllSlots (maxSends : Nat) (s : Source Params) : Prop :=
  (s.slots ++ s.slotlist).Perm (List.range maxSends)

theorem new_allSlots : (Source.new maxSends : Source Params).AllSlots maxSends :=
  reverse_perm _

theorem Source.AllSlots.insert (h : s.AllSlots maxSends) {slot : Nat} {slotlist : List Nat}
    (hlist : s.slotlist = slot :: slotlist) {e : EffectMapStorage Params} (hslot : e.slot = slot)
    (hnew : s.effectmap.lookup name = none) :
    (⟨s.effectmap.insert name e, slotlist⟩ : Source Params).AllSlots maxSends := by
  have hperm : (s.slots ++ slot :: slotlist).Perm (.range maxSends) := hlist ▸ h
  refine .trans ?_ hperm
  change (held EffectMapStorage.slot (s.effectmap.insert name e) ++ slotlist).Perm _
  rw [held_insert hnew, hslot]
  exact perm_middle.symm

theorem Source.AllSlots.replace (h : s.AllSlots maxSends) {e e' : EffectMapStorage Params}
    (hold : s.effectmap.lookup name = some e) (hslot : e'.slot = e.slot) :
    ({ s with effectmap := s.effectmap.insert name e' } : Source Params).AllSlots maxSends :=
  ((held_replace hold hslot).append_right _).trans h

theorem setEffect_allSlots (h : s.AllSlots maxSends) (id : Option Nat) :
    (s.setEffect name id).2.AllSlots maxSends := by
  cases id with
  | none => exact h
  | some target =>
    dsimp only [Source.setEffect]
    cases hlookup : s.effectmap.lookup name with
    | none =>
      cases hlist : s.slotlist with
      | nil => exact h
      | cons slot slotlist => exact h.insert hlist rfl hlookup
    | some effect => exact h.replace hlookup rfl

/-- A filter can be created for an effect that takes a slot. -/
def Source.Creates (name : String) (id : Option Nat) (created : Bool) (s : Source Params) : Prop :=
  id ≠ none → s.effectmap.lookup name = none → s.slotlist ≠ [] → created = true

theorem setEffectParams_allSlots (h : s.AllSlots maxSends) {id : Option Nat} {params : Params}
    {created : Bool} (hcreates : s.Creates name id created) :
    (∀ b s', s.setEffectParams name id params created = .ok (b, s') → s'.AllSlots maxSends) ∧
      ∀ s', s.setEffectParams name id params created = .error s' → s'.AllSlots maxSends := by
  cases id with
  | none =>
    constructor
    · intro b s' heq
      cases heq
      exact h
    · intro s' heq
      cases heq
  | some target =>
    dsimp only [Source.setEffectParams]
    cases hlookup : s.effectmap.lookup name with
    | none =>
      cases hlist : s.slotlist with
      | nil =>
        constructor
        · intro b s' heq
          cases heq
          exact h
        · intro s' heq
          cases heq
      | cons slot slotlist =>
        have hcreated : created = true :=
          hcreates (Option.some_ne_none _) hlookup (by rw [hlist]; exact cons_ne_nil _ _)
        subst hcreated
        constructor
        · intro b s' heq
          cases heq
          exact h.insert hlist rfl hlookup
        · intro s' heq
          cases heq
    | some effect =>
      dsimp only
      split
      · constructor
        · intro b s' heq
          cases heq
          exact h.replace hlookup rfl
        · intro s' heq
          cases heq
      · constructor
        · intro b s' heq
          cases heq
        · intro s' heq
          cases heq
          exact h

theorem unsetEffect_allSlots (h : s.AllSlots maxSends) :
    (s.unsetEffect name).2.AllSlots maxSends := by
  rw [Source.unsetEffect]
  cases hlookup : s.effectmap.lookup name with
  | none => exact h
  | some effect =>
    refine .trans ?_ h
    change (held EffectMapStorage.slot (s.effectmap.erase name) ++
      effect.slot :: s.slotlist).Perm _
    exact perm_middle.trans ((held_erase hlookup).append_right _).symm

theorem Source.AllSlots.consistent (h : s.AllSlots maxSends) : Consistent maxSends s := by
  have hnodup : (s.slots ++ s.slotlist).Nodup := h.nodup_iff.mpr nodup_range
  rw [nodup_append] at hnodup
  obtain ⟨hslots, hlist, hdisjoint⟩ := hnodup
  have hmem : ∀ slot, slot ∈ s.slots ∨ slot ∈ s.slotlist ↔ slot < maxSends := by
    intro slot
    rw [← List.mem_append, h.mem_iff, mem_range]
  constructor
  · exact hslots
  · intro slot hslot
    exact (hmem slot).mp (.inl hslot)
  · exact hlist
  · intro slot
    constructor
    · intro hslot
      exact ⟨(hmem slot).mp (.inr hslot), fun htaken => hdisjoint _ htaken _ hslot rfl⟩
    · rintro ⟨hlt, hfree⟩
      exact ((hmem slot).mpr hlt).resolve_left hfree

/-! ### The copy constructor -/

theorem clone_slots : (s.clone maxSends).slots = s.slots := rfl

theorem clone_slotlist :
    (s.clone maxSends).slotlist = if s.pushesSlot then Source.allSlots maxSends else [] := by
  dsimp only [Source.clone]
  cases s.pushesSlot with
  | true => rw [filter_true, if_pos rfl, Source.allSlots]
  | false => rw [filter_false, reverse_nil, if_neg Bool.false_ne_true]

theorem pushesSlot_iff : s.pushesSlot = true ↔ ∀ slot ∈ s.slots, slot = 0 := by
  rw [Source.pushesSlot, all_eq_true, Source.slots, forall_mem_map]
  simp only [decide_eq_true_eq]

/-- With all slots taken the loop pushes them again only if none but slot 0 exists. -/
theorem pushesSlot_taken (h : s.slots.Perm (List.range maxSends)) :
    s.pushesSlot = true ↔ maxSends ≤ 1 := by
  rw [pushesSlot_iff]
  constructor
  · intro hzero
    by_contra hlt
    have hmem : 1 ∈ s.slots := h.mem_iff.mpr (mem_range.mpr (by omega))
    exact absurd (hzero 1 hmem) one_ne_zero
  · intro hle slot hslot
    have hlt := mem_range.mp (h.mem_iff.mp hslot)
    omega

/-- **When a copy has consistent slots.** -/
theorem clone_allSlots_iff (h : s.AllSlots maxSends) :
    (s.clone maxSends).AllSlots maxSends ↔
      s.slots = [] ∨ s.slotlist = [] ∧ 2 ≤ maxSends := by
  have hlength : s.slots.length + s.slotlist.length = maxSends := by
    rw [← length_append, h.length_eq, length_range]
  rw [Source.AllSlots, clone_slots, clone_slotlist]
  split
  next hpush =>
    constructor
    · intro hperm
      have := hperm.length_eq
      rw [length_append, Source.allSlots, length_reverse, length_range] at this
      exact .inl (eq_nil_of_length_eq_zero (by omega))
    · rintro (hslots | ⟨hlist, htwo⟩)
      · rw [hslots]
        exact reverse_perm _
      · rw [Source.AllSlots, hlist, append_nil] at h
        have := (pushesSlot_taken h).mp hpush
        omega
  next hpush =>
    rw [append_nil]
    constructor
    · intro hperm
      have := hperm.length_eq
      rw [length_range] at this
      refine .inr ⟨eq_nil_of_length_eq_zero (by omega), ?_⟩
      by_contra hlt
      exact hpush ((pushesSlot_taken hperm).mpr (by omega))
    · rintro (hslots | ⟨hlist, -⟩)
      · refine absurd (pushesSlot_iff.mpr ?_) hpush
        rw [hslots]
        intro slot hslot
        cases hslot
      · rw [Source.AllSlots, hlist, append_nil] at h
        exact h

end Slots

/-! ## All sources -/

/-- A copy is of a source without effects, or of one that has used up two slots or more. A
filter can be created for an effect that takes a slot. -/
def Suitable (maxSends : Nat) (sources : List (Source Params)) : SourceOp Params → Prop
  | .setEffectParams k name id _ created =>
    ∀ s, sources[k]? = some s → s.Creates name id created
  | .clone k true =>
    ∀ s, sources[k]? = some s → s.slots = [] ∨ s.slotlist = [] ∧ 2 ≤ maxSends
  | _ => True

section Steps

variable {maxSends : Nat} {sources sources' : List (Source Params)}

theorem mem_set {s : Source Params} (h : ∀ s ∈ sources, s.AllSlots maxSends) {k : Nat}
    (hs : s.AllSlots maxSends) : ∀ s' ∈ sources.set k s, s'.AllSlots maxSends := by
  intro s' hs'
  rcases mem_or_eq_of_mem_set hs' with hs' | rfl
  · exact h s' hs'
  · exact hs

theorem mem_append {s : Source Params} (h : ∀ s ∈ sources, s.AllSlots maxSends)
    (hs : s.AllSlots maxSends) : ∀ s' ∈ sources ++ [s], s'.AllSlots maxSends := by
  intro s' hs'
  rcases List.mem_append.mp hs' with hs' | hs'
  · exact h s' hs'
  · rw [mem_singleton.mp hs']
    exact hs

theorem step_allSlots (h : ∀ s ∈ sources, s.AllSlots maxSends) {op : SourceOp Params}
    (hgood : Suitable maxSends sources op) (hstep : step maxSends sources op = some sources') :
    ∀ s ∈ sources', s.AllSlots maxSends := by
  cases op with
  | new =>
    cases hstep
    exact mem_append h new_allSlots
  | setEffect k name id =>
    obtain ⟨s, hs, rfl⟩ := Option.map_eq_some_iff.mp hstep
    exact mem_set h (setEffect_allSlots (h s (mem_of_getElem? hs)) id)
  | setEffectParams k name id params created =>
    obtain ⟨s, hs, rfl⟩ := Option.map_eq_some_iff.mp hstep
    obtain ⟨hok, herror⟩ := @setEffectParams_allSlots _ maxSends s name
      (h s (mem_of_getElem? hs)) id params created (hgood s hs)
    split
    · exact mem_set h (hok _ _ ‹_›)
    · exact mem_set h (herror _ ‹_›)
  | unsetEffect k name =>
    obtain ⟨s, hs, rfl⟩ := Option.map_eq_some_iff.mp hstep
    exact mem_set h (unsetEffect_allSlots (h s (mem_of_getElem? hs)))
  | clone k created =>
    obtain ⟨s, hs, rfl⟩ := Option.map_eq_some_iff.mp hstep
    cases created with
    | false => exact h
    | true =>
      exact mem_append h
        ((clone_allSlots_iff (h s (mem_of_getElem? hs))).mpr (hgood s hs))

end Steps

/-- **The slots are consistent** in every run whose copies and new filters are suitable. -/
theorem effects_consistent (maxSends : Nat) {l : List (Source Params)}
    (h : ((sources maxSends).restrict (Suitable maxSends)).Reachable l) :
    ∀ s ∈ l, Consistent maxSends s := by
  have hall : ∀ s ∈ l, s.AllSlots maxSends := by
    refine System.Reachable.invariant_restrict
      (I := fun l => ∀ s ∈ l, s.AllSlots maxSends) ?_ ?_ h
    · rintro l rfl s hs
      cases hs
    · intro l op l' hl hgood hstep
      exact step_allSlots hl hgood hstep
  intro s hs
  exact (hall s hs).consistent

/-- A source with two sends takes both, and is copied. -/
theorem effects_consistent_two :
    ∃ l : List (Source Unit), ((sources 2).restrict (Suitable 2)).Reachable l ∧
      l.map (·.slots) = [[0, 1], [0, 1]] ∧ ∀ s ∈ l, Consistent 2 s := by
  have init : ((sources 2).restrict (Suitable 2)).Reachable ([] : List (Source Unit)) :=
    .init rfl
  have new := init.restrict_step .new trivial rfl
  have reverb := new.restrict_step (.setEffectParams 0 "reverb" (some 4) () true)
    (fun _ _ _ _ _ => rfl) rfl
  have echo := reverb.restrict_step (.setEffect 0 "echo" (some 5)) trivial rfl
  have copy := echo.restrict_step (.clone 0 true)
    (fun s hs => .inr ⟨Option.some.inj hs ▸ rfl, le_rfl⟩) rfl
  exact ⟨_, copy, rfl, effects_consistent 2 copy⟩

/-- **Not in every run.** The copy of a source with one effect out of two has no slot left
for a second one. -/
theorem not_always_consistent :
    ¬ ∀ (maxSends : Nat) (l : List (Source Unit)), (sources maxSends).Reachable l →
      ∀ s ∈ l, Consistent maxSends s := by
  intro h
  obtain ⟨l, hl⟩ : ∃ l, System.run (step 2) ([] : List (Source Unit))
      [.new, .setEffect 0 "reverb" (some 4), .clone 0 true] = some l := ⟨_, rfl⟩
  have hreach : (sources 2).Reachable l :=
    .of_run (.init rfl) hl
  cases hl
  have hcopy := h 2 _ hreach _ (mem_of_getElem? (i := 1) rfl)
  have hfree := (hcopy.mem_slotlist 0).mpr ⟨by decide, by decide⟩
  cases hfree

end Lhatove.Audio.Effects
