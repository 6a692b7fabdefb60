import Lhatove.Lh.TypeRegistry
import Lhatove.Lib.Transition

/-!
# Types asked and registered in any order

The registry and the type objects together: `tagFor` asks `isa`, which hands out
ids and bits as it goes.

- `nearestIn_eq`: with the type objects as they are, the loop of `tagFor` finds what it
  finds with `isa` known beforehand.
- `Numbered`: ids are handed out without gaps, so fewer than 128 types have ids below 128.
- `reachable_answers`: what `isa` and `tagFor` answer in every state of every run.
-/

namespace Lhatove

namespace Types

variable {Ty : Type} [DecidableEq Ty] {F : Forest Ty} {σ : Types Ty}

/-- `MAX_TYPES`, the length of `bits`. -/
def maxTypes : Nat := 128

/-- `Type::getId()`. -/
def getId (F : Forest Ty) (t : Ty) (σ : Types Ty) : Nat × Types Ty := ((init F t σ).id t, init F t σ)

/-- `Type::isa(const uint32 &other)`. -/
def isaId (F : Forest Ty) (t : Ty) (other : Nat) (σ : Types Ty) : Bool × Types Ty :=
  ((init F t σ).bits t other, init F t σ)

theorem isa_eq_decide (h : σ.Ready F fun _ => False) (t u : Ty) :
    (isa F t u σ).1 = F.isa t u := by
  rw [Bool.eq_iff_iff, (isa_eq h t u).1, Forest.isa_iff]

theorem init_keeps (F : Forest Ty) (t : Ty) {σ : Types Ty} {u : Ty} (hu : σ.inited u = true) :
    (init F t σ).inited u = true ∧ (init F t σ).id u = σ.id u := by
  induction hd : F.depth t using Nat.strong_induction_on generalizing t σ with
  | _ d ih =>
    unfold init
    split
    · exact ⟨hu, rfl⟩
    next ht =>
      have hut : u ≠ t := by
        rintro rfl
        exact ht hu
      have hinited : (σ.enter t).inited u = true := (Function.update_of_ne hut ..).trans hu
      have hid : (σ.enter t).id u = σ.id u := Function.update_of_ne hut ..
      split
      · exact ⟨hinited, hid⟩
      · next p hp =>
        obtain ⟨hkept, hsame⟩ := ih (F.depth p) (hd ▸ F.depth_parent hp) p hinited rfl
        exact ⟨hkept, hsame.trans hid⟩

theorem isaId_eq (h : σ.Ready F fun _ => False) (t u : Ty) :
    (isaId F t (getId F u σ).1 (getId F u σ).2).1 = true ↔ F.IsA t u := by
  obtain ⟨hready, hu, -⟩ := init_ready u h fun _ hb => hb.elim
  obtain ⟨hready', ht, -⟩ := init_ready t hready fun _ hb => hb.elim
  obtain ⟨hu', hid⟩ := init_keeps F t hu
  change (init F t (init F u σ)).bits t ((init F u σ).id u) = true ↔ _
  rw [hready'.bits t _ not_false ht, ← hid]
  constructor
  · rintro ⟨v, htv, hv⟩
    exact hready'.inj v u (hready'.up t v not_false ht htv) hu' hv ▸ htv
  · intro htu
    exact ⟨u, htu, rfl⟩

/-! ## Ids without gaps -/

/-- Every id that was handed out is that of a type. -/
def Numbered (σ : Types Ty) : Prop :=
  0 < σ.nextId ∧ ∀ i, 0 < i → i < σ.nextId → ∃ t, σ.inited t = true ∧ σ.id t = i

omit [DecidableEq Ty] in
theorem start_numbered : (start : Types Ty).Numbered :=
  ⟨Nat.one_pos, fun i h0 h1 => absurd h1 (by simp only [start]; omega)⟩

theorem Numbered.enter (h : σ.Numbered) {t : Ty} (ht : σ.inited t = false) :
    (σ.enter t).Numbered := by
  refine ⟨Nat.succ_pos _, ?_⟩
  intro i h0 hi
  by_cases hlast : i = σ.nextId
  · exact ⟨t, Function.update_self .., hlast ▸ Function.update_self ..⟩
  · obtain ⟨u, hu, rfl⟩ := h.2 i h0 (by simp only [Types.enter] at hi; omega)
    have hut : u ≠ t := by
      rintro rfl
      rw [ht] at hu
      cases hu
    exact ⟨u, (Function.update_of_ne hut ..).trans hu, Function.update_of_ne hut ..⟩

theorem Numbered.init (h : σ.Numbered) (F : Forest Ty) (t : Ty) : (init F t σ).Numbered := by
  induction hd : F.depth t using Nat.strong_induction_on generalizing t σ with
  | _ d ih =>
    unfold Types.init
    by_cases ht : σ.inited t = true
    · rwa [if_pos ht]
    · rw [if_neg ht]
      have hentered := h.enter (Bool.eq_false_iff.mpr ht)
      split
      · exact hentered
      · next p hp => exact ih (F.depth p) (hd ▸ F.depth_parent hp) hentered p rfl

omit [DecidableEq Ty] in
theorem Numbered.nextId_le [Fintype Ty] (h : σ.Numbered) : σ.nextId ≤ Fintype.card Ty + 1 := by
  have hsub : Finset.Ico 1 σ.nextId ⊆ Finset.univ.image σ.id := by
    intro i hi
    obtain ⟨h0, hlt⟩ := Finset.mem_Ico.mp hi
    obtain ⟨t, -, rfl⟩ := h.2 i h0 hlt
    exact Finset.mem_image_of_mem σ.id (Finset.mem_univ t)
  have hcard := (Finset.card_le_card hsub).trans Finset.card_image_le
  rw [Nat.card_Ico, Finset.card_univ] at hcard
  omega

omit [DecidableEq Ty] in
theorem Ready.id_lt [Fintype Ty] (h : σ.Ready F fun _ => False) (hnumbered : σ.Numbered)
    (hcard : Fintype.card Ty < maxTypes) (t : Ty) : σ.id t < maxTypes := by
  have hnext := hnumbered.nextId_le
  cases ht : σ.inited t with
  | true =>
    have := (h.inited t ht).2
    omega
  | false =>
    rw [(h.uninited t ht).1]
    exact Nat.zero_lt_of_lt hcard

end Types

namespace Lh

namespace TypeRegistry

variable {Ty Tag : Type} [DecidableEq Ty] {F : Forest Ty}

/-! ## `tagFor` with the type objects -/

/-- The loop of `tagFor`, over the entries of `tags` in the order of the map. -/
def nearestIn (F : Forest Ty) (type : Ty) : Option (Ty × Tag) → List (Ty × Tag) → Types Ty →
    Option (Ty × Tag) × Types Ty
  | best, [], σ => (best, σ)
  | best, entry :: entries, σ =>
    let asked := Types.isa F type entry.1 σ
    if !asked.1 then nearestIn F type best entries asked.2
    else
      match best with
      | none => nearestIn F type (some entry) entries asked.2
      | some found =>
        let nearer := Types.isa F entry.1 found.1 asked.2
        if nearer.1 then nearestIn F type (some entry) entries nearer.2
        else nearestIn F type best entries nearer.2

/-- `TypeRegistry::tagFor(type)` -/
def tagForIn (F : Forest Ty) (tags : List (Ty × Tag)) (type : Ty) (σ : Types Ty) :
    Option Tag × Types Ty :=
  match tags.find? fun entry => entry.1 = type with
  | some entry => (some entry.2, σ)
  | none =>
    let best := nearestIn F type none tags σ
    (best.1.map Prod.snd, best.2)

/-- `tags[&type] = tag` -/
def setTag (tags : List (Ty × Tag)) (type : Ty) (tag : Tag) : List (Ty × Tag) :=
  (type, tag) :: tags.filter fun entry => entry.1 ≠ type

/-- The type objects change while the loop asks, its answer does not depend on them. -/
theorem nearestIn_eq (type : Ty) (best : Option (Ty × Tag)) (entries : List (Ty × Tag))
    {σ : Types Ty} (h : σ.Ready F fun _ => False) :
    (nearestIn F type best entries σ).1 = nearestLoop F type best entries ∧
      (nearestIn F type best entries σ).2.Ready F fun _ => False := by
  induction entries generalizing best σ with
  | nil => exact ⟨rfl, h⟩
  | cons entry entries ih =>
    have hready := (Types.isa_eq h type entry.1).2
    unfold nearestIn nearestLoop
    dsimp only
    rw [Types.isa_eq_decide h]
    by_cases hisa : F.isa type entry.1 = true
    · rw [hisa, Bool.not_true, if_neg Bool.false_ne_true, if_neg Bool.false_ne_true]
      cases best with
      | none => exact ih _ hready
      | some found =>
        have hready' := (Types.isa_eq hready entry.1 found.1).2
        dsimp only
        rw [Types.isa_eq_decide hready]
        by_cases hnearer : F.isa entry.1 found.1 = true
        · rw [if_pos hnearer, if_pos hnearer]
          exact ih _ hready'
        · rw [if_neg hnearer, if_neg hnearer]
          exact ih _ hready'
    · rw [Bool.eq_false_iff.mpr hisa, Bool.not_false, if_pos rfl, if_pos rfl]
      exact ih _ hready

/-- The type, of those that have a tag, that `type` derives from and that derives from all
the others. -/
structure NearestIn (F : Forest Ty) (tags : List (Ty × Tag)) (type : Ty) (own : Ty × Tag) :
    Prop where
  registered : own ∈ tags
  isA : F.IsA type own.1
  nearest : ∀ other ∈ tags, F.IsA type other.1 → F.IsA own.1 other.1

/-- A map: no type has two tags. -/
def OneTag (tags : List (Ty × Tag)) : Prop := (tags.map Prod.fst).Nodup

theorem OneTag.setTag {tags : List (Ty × Tag)} (h : OneTag tags) (type : Ty) (tag : Tag) :
    OneTag (setTag tags type tag) := by
  unfold OneTag TypeRegistry.setTag
  rw [List.map_cons, List.nodup_cons]
  refine ⟨?_, h.sublist (List.filter_sublist.map _)⟩
  intro hmem
  obtain ⟨entry, hentry, heq⟩ := List.mem_map.mp hmem
  exact of_decide_eq_true (List.mem_filter.mp hentry).2 heq

omit [DecidableEq Ty] in
theorem OneTag.eq {tags : List (Ty × Tag)} (h : OneTag tags) {a b : Ty × Tag} (ha : a ∈ tags)
    (hb : b ∈ tags) (hab : a.1 = b.1) : a = b :=
  List.inj_on_of_nodup_map h ha hb hab

omit [DecidableEq Ty] in
theorem NearestIn.unique {tags : List (Ty × Tag)} (hone : OneTag tags) {type : Ty}
    {own own' : Ty × Tag} (h : NearestIn F tags type own) (h' : NearestIn F tags type own') :
    own = own' :=
  hone.eq h.registered h'.registered
    ((h.nearest own' h'.registered h'.isA).antisymm (h'.nearest own h.registered h.isA))

/-- What every `init` keeps, `tagFor` keeps: it does nothing else to the type objects. -/
theorem nearestIn_keeps {P : Types Ty → Prop} (hinit : ∀ t σ, P σ → P (Types.init F t σ))
    (type : Ty) (best : Option (Ty × Tag)) (entries : List (Ty × Tag)) {σ : Types Ty} (h : P σ) :
    P (nearestIn F type best entries σ).2 := by
  induction entries generalizing best σ with
  | nil => exact h
  | cons entry entries ih =>
    unfold nearestIn
    dsimp only
    have hasked : P (Types.isa F type entry.1 σ).2 := hinit type σ h
    split_ifs
    · exact ih _ hasked
    · cases best with
      | none => exact ih _ hasked
      | some found =>
        have hnearer : P (Types.isa F entry.1 found.1 (Types.isa F type entry.1 σ).2).2 :=
          hinit entry.1 _ hasked
        dsimp only
        split_ifs
        all_goals exact ih _ hnearer

theorem tagForIn_keeps {P : Types Ty → Prop} (hinit : ∀ t σ, P σ → P (Types.init F t σ))
    (tags : List (Ty × Tag)) (type : Ty) {σ : Types Ty} (h : P σ) :
    P (tagForIn F tags type σ).2 := by
  unfold tagForIn
  split
  · exact h
  · exact nearestIn_keeps hinit type none tags h

/-- What `tagFor` is to answer. -/
def Answer (F : Forest Ty) (tags : List (Ty × Tag)) (type : Ty) : Option Tag → Prop
  | none => ∀ entry ∈ tags, ¬ F.IsA type entry.1
  | some tag => ∃ own, NearestIn F tags type own ∧ own.2 = tag

theorem tagForIn_answer {tags order : List (Ty × Tag)} (horder : order.Perm tags) {σ : Types Ty}
    (h : σ.Ready F fun _ => False) (type : Ty) :
    Answer F tags type (tagForIn F order type σ).1 := by
  unfold tagForIn
  cases hfind : order.find? fun entry => entry.1 = type with
  | some entry =>
    have hmem := horder.subset (List.mem_of_find?_eq_some hfind)
    have htype : entry.1 = type := by simpa using List.find?_some hfind
    refine ⟨entry, ⟨hmem, htype ▸ .refl _, ?_⟩, rfl⟩
    intro other _ hisa
    rwa [htype]
  | none =>
    have hbest : Best F type ([] ++ order) (nearestLoop F type none order) :=
      nearestLoop_best (fun _ hmem => by cases hmem)
    rw [List.nil_append] at hbest
    dsimp only
    rw [(nearestIn_eq type none order h).1]
    cases hloop : nearestLoop F type none order with
    | none =>
      rw [hloop] at hbest
      intro entry hentry
      exact hbest entry (horder.symm.subset hentry)
    | some found =>
      rw [hloop] at hbest
      refine ⟨found, ⟨horder.subset hbest.1, hbest.2.1, ?_⟩, rfl⟩
      intro other hother
      exact hbest.2.2 other (horder.symm.subset hother)

omit [DecidableEq Ty] in
theorem Answer.eq_some_iff {tags : List (Ty × Tag)} (hone : OneTag tags) {type : Ty}
    {answer : Option Tag} (h : Answer F tags type answer) (tag : Tag) :
    answer = some tag ↔ ∃ own, NearestIn F tags type own ∧ own.2 = tag := by
  constructor
  · rintro rfl
    exact h
  · rintro ⟨own, hnearest, rfl⟩
    cases answer with
    | none => exact absurd hnearest.isA (h own hnearest.registered)
    | some found =>
      obtain ⟨own', hnearest', rfl⟩ := h
      rw [hnearest.unique hone hnearest']

omit [DecidableEq Ty] in
theorem Answer.eq_none_iff {tags : List (Ty × Tag)} {type : Ty} {answer : Option Tag}
    (h : Answer F tags type answer) :
    answer = none ↔ ∀ entry ∈ tags, ¬ F.IsA type entry.1 := by
  constructor
  · rintro rfl
    exact h
  · intro hno
    cases answer with
    | none => rfl
    | some found =>
      obtain ⟨own, hnearest, -⟩ := h
      exact absurd hnearest.isA (hno own hnearest.registered)

/-! ## Runs -/

/-- The type objects and the map. -/
structure TypeObjects (Ty Tag : Type) where
  types : Types Ty
  tags : List (Ty × Tag)

inductive TypeCall (Ty Tag : Type)
  | init (t : Ty)
  | getId (t : Ty)
  | isa (t u : Ty)
  | isaId (t : Ty) (other : Nat)
  | add (t : Ty) (tag : Tag)
  | tagFor (t : Ty) (order : List (Ty × Tag))

variable [DecidableEq Tag]

def TypeObjects.step (F : Forest Ty) (s : TypeObjects Ty Tag) :
    TypeCall Ty Tag → Option (TypeObjects Ty Tag)
  | .init t => some { s with types := Types.init F t s.types }
  | .getId t => some { s with types := (Types.getId F t s.types).2 }
  | .isa t u => some { s with types := (Types.isa F t u s.types).2 }
  | .isaId t other => some { s with types := (Types.isaId F t other s.types).2 }
  | .add t tag => some { s with tags := setTag s.tags t tag }
  | .tagFor t order =>
    if order.Perm s.tags then some { s with types := (tagForIn F order t s.types).2 } else none

def typeSystem (F : Forest Ty) : System (TypeObjects Ty Tag) (TypeCall Ty Tag) :=
  System.ofStep (fun s => s = ⟨Types.start, []⟩) (TypeObjects.step F)

/-- What holds of the type objects and the map in every state. -/
structure InOrder (F : Forest Ty) (s : TypeObjects Ty Tag) : Prop where
  ready : s.types.Ready F fun _ => False
  numbered : s.types.Numbered
  oneTag : OneTag s.tags

omit [DecidableEq Ty] [DecidableEq Tag] in
theorem start_inOrder (F : Forest Ty) : InOrder F (⟨Types.start, []⟩ : TypeObjects Ty Tag) :=
  ⟨Types.start_ready F, Types.start_numbered, List.nodup_nil⟩

omit [DecidableEq Tag] in
theorem InOrder.init {s : TypeObjects Ty Tag} (h : InOrder F s) (t : Ty) :
    InOrder F { s with types := .init F t s.types } :=
  ⟨(Types.init_ready t h.ready fun _ hb => hb.elim).1, h.numbered.init F t, h.oneTag⟩

theorem InOrder.step {s s' : TypeObjects Ty Tag} (h : InOrder F s) {call : TypeCall Ty Tag}
    (hstep : s.step F call = some s') : InOrder F s' := by
  cases call with
  | init t =>
    cases Option.some.inj hstep
    exact h.init t
  | getId t =>
    cases Option.some.inj hstep
    exact h.init t
  | isa t u =>
    cases Option.some.inj hstep
    exact h.init t
  | isaId t other =>
    cases Option.some.inj hstep
    exact h.init t
  | add t tag =>
    cases Option.some.inj hstep
    exact ⟨h.ready, h.numbered, h.oneTag.setTag t tag⟩
  | tagFor t order =>
    rw [TypeObjects.step] at hstep
    split_ifs at hstep
    cases Option.some.inj hstep
    refine ⟨tagForIn_keeps ?_ order t h.ready, tagForIn_keeps ?_ order t h.numbered, h.oneTag⟩
    · intro u σ hσ
      exact (Types.init_ready u hσ fun _ hb => hb.elim).1
    · intro u σ hσ
      exact hσ.init F u

theorem InOrder.of_reachable {s : TypeObjects Ty Tag} (h : (typeSystem F).Reachable s) :
    InOrder F s := by
  refine System.Reachable.invariant ?_ ?_ h
  · rintro s rfl
    exact start_inOrder F
  · intro s call s' hs hstep
    exact hs.step hstep

/-- Of fewer than 128 types, in every state that calls lead to: the ids are in the bounds of the
bits, `isa` answers whether the one type derives from the other, and `tagFor` the tag of the
nearest registered type, or none where there is no such type. -/
theorem reachable_answers [Fintype Ty] (hcard : Fintype.card Ty < Types.maxTypes)
    {s : TypeObjects Ty Tag} (h : (typeSystem F).Reachable s) :
    (∀ t, s.types.id t < Types.maxTypes) ∧
    (∀ a b, (Types.isa F a b s.types).1 = true ↔ F.IsA a b) ∧
    (∀ a b, (Types.isaId F a (Types.getId F b s.types).1 (Types.getId F b s.types).2).1 = true ↔
      F.IsA a b) ∧
    ∀ order, order.Perm s.tags → ∀ t,
      (∀ tag, (t, tag) ∈ s.tags → (tagForIn F order t s.types).1 = some tag) ∧
      (∀ tag, (tagForIn F order t s.types).1 = some tag ↔
        ∃ own, NearestIn F s.tags t own ∧ own.2 = tag) ∧
      ((tagForIn F order t s.types).1 = none ↔ ∀ entry ∈ s.tags, ¬ F.IsA t entry.1) := by
  have hs := InOrder.of_reachable h
  refine ⟨hs.ready.id_lt hs.numbered hcard, fun a b => (Types.isa_eq hs.ready a b).1,
    Types.isaId_eq hs.ready, ?_⟩
  intro order horder t
  have hanswer := tagForIn_answer horder hs.ready t
  refine ⟨?_, hanswer.eq_some_iff hs.oneTag, hanswer.eq_none_iff⟩
  intro tag htag
  refine (hanswer.eq_some_iff hs.oneTag tag).mpr ⟨(t, tag), ⟨htag, .refl t, ?_⟩, rfl⟩
  intro other _ hisa
  exact hisa

/-- A root, a child of it and a grandchild. -/
def threeTypes : Forest (Fin 3) where
  parent
    | ⟨0, _⟩ => none
    | ⟨1, _⟩ => some 0
    | ⟨2, _⟩ => some 1
  depth t := t.val
  depth_parent := by decide

/-- The grandchild is asked first; the root and the child are registered, the child last. -/
def threeAsked : List (TypeCall (Fin 3) Nat) := [.isa 2 1, .add 0 10, .add 1 11]

theorem reachable_answers_three :
    ∃ s, (typeSystem threeTypes).Reachable s ∧ s.tags = [(1, 11), (0, 10)] ∧
      ((tagForIn threeTypes [(0, 10), (1, 11)] 2 s.types).1 = some 11 ↔
        ∃ own, NearestIn threeTypes s.tags 2 own ∧ own.2 = 11) := by
  obtain ⟨s, hrun, htags⟩ : ∃ s, System.run (TypeObjects.step threeTypes) ⟨Types.start, []⟩
      threeAsked = some s ∧ s.tags = [(1, 11), (0, 10)] := ⟨_, rfl, rfl⟩
  have hs : (typeSystem threeTypes).Reachable s :=
    .of_run (.init rfl) hrun
  have horder : [(0, 10), (1, 11)].Perm s.tags := by
    rw [htags]
    decide
  obtain ⟨-, -, -, hanswers⟩ := reachable_answers (by decide) hs
  exact ⟨s, hs, htags, (hanswers _ horder 2).2.1 11⟩

end TypeRegistry

end Lh

end Lhatove
