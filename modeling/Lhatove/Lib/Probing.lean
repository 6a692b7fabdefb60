import Mathlib.Data.Finset.Card
import Mathlib.Data.List.Nodup
import Mathlib.Tactic

/-!
# Open addressing

A table of slots, and for each key the slots it may be in, in the order they
are tried (its path).

- `insert` fills the first free slot of a path, `lookup` reads the path up to the
  first free slot.
- `Holds`: what the slots have in common with the entries that were inserted.
- `Holds.insert`: one entry more, while the filled slots are fewer than those of its
  path.
- `Holds.lookup`, `Holds.lookup_other`: what a lookup gives.
-/

namespace Lhatove.Probing

open List

variable {κ ν ι : Type} [DecidableEq κ] [DecidableEq ι]

/-- The entries in their slots; a free slot has none. -/
abbrev Slots (ι κ ν : Type) := ι → Option (κ × ν)

/-- The first free slot of a path. -/
def freeSlot (slots : Slots ι κ ν) : List ι → Option ι
  | [] => none
  | i :: path => if (slots i).isNone then some i else freeSlot slots path

/-- An entry goes to the first free slot of its path, if there is one. -/
def insert (slots : Slots ι κ ν) (path : List ι) (entry : κ × ν) : Bool × Slots ι κ ν :=
  match freeSlot slots path with
  | none => (false, slots)
  | some i => (true, Function.update slots i (some entry))

/-- The value of a key; a free slot of its path ends the search. -/
def lookup (slots : Slots ι κ ν) (key : κ) : List ι → Option ν
  | [] => none
  | i :: path =>
    match slots i with
    | none => none
    | some entry => if entry.1 = key then some entry.2 else lookup slots key path

/-! ## The first free slot -/

omit [DecidableEq κ] [DecidableEq ι] in
theorem freeSlot_eq_some {slots : Slots ι κ ν} {path : List ι} {i : ι}
    (h : freeSlot slots path = some i) :
    ∃ before after, path = before ++ i :: after ∧ slots i = none ∧
      ∀ j ∈ before, slots j ≠ none := by
  induction path with
  | nil => simp [freeSlot] at h
  | cons j path ih =>
    rw [freeSlot] at h
    split_ifs at h with hfree
    · cases h
      exact ⟨[], path, rfl, Option.isNone_iff_eq_none.mp hfree, by simp⟩
    · obtain ⟨before, after, rfl, hnone, hbefore⟩ := ih h
      refine ⟨j :: before, after, rfl, hnone, ?_⟩
      intro j' hj'
      rcases mem_cons.mp hj' with rfl | hj'
      · exact fun h => hfree (Option.isNone_iff_eq_none.mpr h)
      · exact hbefore j' hj'

omit [DecidableEq κ] [DecidableEq ι] in
theorem freeSlot_eq_none {slots : Slots ι κ ν} {path : List ι} (h : freeSlot slots path = none) :
    ∀ i ∈ path, slots i ≠ none := by
  induction path with
  | nil => simp
  | cons j path ih =>
    rw [freeSlot] at h
    split_ifs at h with hfree
    intro i hi
    rcases mem_cons.mp hi with rfl | hi
    · exact fun h => hfree (Option.isNone_iff_eq_none.mpr h)
    · exact ih h i hi

omit [DecidableEq κ] in
theorem exists_freeSlot {slots : Slots ι κ ν} {path : List ι} {filled : Finset ι}
    (hfilled : ∀ i, slots i ≠ none → i ∈ filled) (hcard : filled.card < path.toFinset.card) :
    ∃ i, freeSlot slots path = some i := by
  cases hfree : freeSlot slots path with
  | some i => exact ⟨i, rfl⟩
  | none =>
    have hsub : path.toFinset ⊆ filled := by
      intro i hi
      exact hfilled i (freeSlot_eq_none hfree i (mem_toFinset.mp hi))
    have := Finset.card_le_card hsub
    omega

omit [DecidableEq κ] in
theorem insert_of_freeSlot {slots : Slots ι κ ν} {path : List ι} {i : ι}
    (h : freeSlot slots path = some i) (entry : κ × ν) :
    insert slots path entry = (true, Function.update slots i (some entry)) := by
  rw [insert, h]

/-! ## Placed entries -/

/-- An entry is on its path, and all slots before it have entries of other keys. -/
def Placed (slots : Slots ι κ ν) (path : List ι) (entry : κ × ν) : Prop :=
  ∃ before i after, path = before ++ i :: after ∧ slots i = some entry ∧
    ∀ j ∈ before, ∃ other, slots j = some other ∧ other.1 ≠ entry.1

omit [DecidableEq ι] in
theorem lookup_append {slots : Slots ι κ ν} {key : κ} {before : List ι} (path : List ι)
    (h : ∀ j ∈ before, ∃ other, slots j = some other ∧ other.1 ≠ key) :
    lookup slots key (before ++ path) = lookup slots key path := by
  induction before with
  | nil => rfl
  | cons j before ih =>
    obtain ⟨other, hslot, hother⟩ := h j mem_cons_self
    rw [cons_append, lookup, hslot]
    simp only [if_neg hother]
    exact ih fun j' hj' => h j' (mem_cons_of_mem j hj')

omit [DecidableEq ι] in
theorem Placed.lookup {slots : Slots ι κ ν} {path : List ι} {entry : κ × ν}
    (h : Placed slots path entry) : lookup slots entry.1 path = some entry.2 := by
  obtain ⟨before, i, after, rfl, hslot, hbefore⟩ := h
  rw [lookup_append _ hbefore, Probing.lookup, hslot]
  simp

omit [DecidableEq ι] in
theorem lookup_eq_none {slots : Slots ι κ ν} {key : κ} (path : List ι)
    (h : ∀ i entry, slots i = some entry → entry.1 ≠ key) : lookup slots key path = none := by
  induction path with
  | nil => rfl
  | cons i path ih =>
    rw [lookup]
    cases hslot : slots i with
    | none => rfl
    | some entry => simpa [h i entry hslot] using ih

omit [DecidableEq κ] in
theorem Placed.update {slots : Slots ι κ ν} {path : List ι} {entry : κ × ν} {i : ι}
    (h : Placed slots path entry) (hfree : slots i = none) (new : κ × ν) :
    Placed (Function.update slots i (some new)) path entry := by
  have hkept : ∀ j other, slots j = some other →
      Function.update slots i (some new) j = some other := by
    intro j other hj
    have hne : j ≠ i := by
      rintro rfl
      rw [hfree] at hj
      cases hj
    rw [Function.update_of_ne hne, hj]
  obtain ⟨before, k, after, hpath, hslot, hbefore⟩ := h
  refine ⟨before, k, after, hpath, hkept k entry hslot, ?_⟩
  intro j hj
  obtain ⟨other, hother, hne⟩ := hbefore j hj
  exact ⟨other, hkept j other hother, hne⟩

/-! ## Tables -/

/-- The slots hold these entries, each on the path of its key, and nothing else. -/
structure Holds (path : κ → List ι) (slots : Slots ι κ ν) (entries : List (κ × ν)) : Prop where
  placed : ∀ entry ∈ entries, Placed slots (path entry.1) entry
  known : ∀ i entry, slots i = some entry → entry ∈ entries
  few : ∃ filled : Finset ι, filled.card ≤ entries.length ∧ ∀ i, slots i ≠ none → i ∈ filled

omit [DecidableEq κ] [DecidableEq ι] in
theorem Holds.empty (path : κ → List ι) : Holds path (fun _ => none) ([] : List (κ × ν)) where
  placed := by simp
  known := by simp
  few := ⟨∅, by simp⟩

omit [DecidableEq κ] in
/-- An entry with a new key, whose path has more slots than there are entries. -/
theorem Holds.insert {path : κ → List ι} {slots : Slots ι κ ν} {entries : List (κ × ν)}
    (h : Holds path slots entries) (entry : κ × ν)
    (hnew : ∀ other ∈ entries, other.1 ≠ entry.1)
    (hroom : entries.length < (path entry.1).toFinset.card) :
    (insert slots (path entry.1) entry).1 = true ∧
      Holds path (insert slots (path entry.1) entry).2 (entries ++ [entry]) := by
  obtain ⟨filled, hcard, hfilled⟩ := h.few
  obtain ⟨i, hfree⟩ := exists_freeSlot hfilled (lt_of_le_of_lt hcard hroom)
  obtain ⟨before, after, hpath, hnone, hbefore⟩ := freeSlot_eq_some hfree
  rw [insert_of_freeSlot hfree]
  refine ⟨rfl, ?_⟩
  dsimp only
  refine ⟨?_, ?_, ?_⟩
  · intro e he
    rcases mem_append.mp he with he | he
    · exact (h.placed e he).update hnone entry
    · -- the new entry: the slots before it were filled earlier, with other keys
      cases mem_singleton.mp he
      refine ⟨before, i, after, hpath, Function.update_self .., ?_⟩
      intro j hj
      have hne : j ≠ i := by
        rintro rfl
        exact hbefore j hj hnone
      obtain ⟨other, hother⟩ := Option.ne_none_iff_exists'.mp (hbefore j hj)
      exact ⟨other, by rw [Function.update_of_ne hne, hother], hnew other (h.known j other hother)⟩
  · intro j e hj
    rw [mem_append, mem_singleton]
    by_cases hji : j = i
    · rw [hji, Function.update_self] at hj
      exact Or.inr (Option.some.inj hj).symm
    · rw [Function.update_of_ne hji] at hj
      exact .inl (h.known j e hj)
  · refine ⟨Insert.insert i filled, ?_, ?_⟩
    · have := Finset.card_insert_le i filled
      rw [length_append, length_singleton]
      omega
    · intro j hj
      by_cases hji : j = i
      · exact Finset.mem_insert.mpr (Or.inl hji)
      · rw [Function.update_of_ne hji] at hj
        exact Finset.mem_insert_of_mem (hfilled j hj)

omit [DecidableEq ι] in
theorem Holds.lookup {path : κ → List ι} {slots : Slots ι κ ν} {entries : List (κ × ν)}
    (h : Holds path slots entries) {entry : κ × ν} (hmem : entry ∈ entries) :
    lookup slots entry.1 (path entry.1) = some entry.2 :=
  (h.placed entry hmem).lookup

omit [DecidableEq ι] in
theorem Holds.lookup_other {path : κ → List ι} {slots : Slots ι κ ν} {entries : List (κ × ν)}
    (h : Holds path slots entries) {key : κ} (hkey : ∀ entry ∈ entries, entry.1 ≠ key) :
    Probing.lookup slots key (path key) = none := by
  apply lookup_eq_none
  intro i entry hslot
  exact hkey entry (h.known i entry hslot)

end Lhatove.Probing
