import Mathlib.Data.List.AList
import Mathlib.Data.Finset.Lattice.Fold
import Mathlib.Tactic

/-!
# Tables and names

- What a table holds after an entry is set or removed, or all entries of a kind (`without`).
- `unused`: a name that is not in use, chosen freely.
- `swapRemove`: an element is replaced by the last one.
-/

namespace Lhatove

open List

/-! ## Tables -/

/-- A finite table. -/
abbrev Table (κ α : Type) := AList fun _ : κ => α

namespace Table

variable {κ α : Type} [DecidableEq κ]

theorem lookup_insert_eq (table : Table κ α) (k k' : κ) (a : α) :
    AList.lookup k (AList.insert k' a table) = if k = k' then some a else table.lookup k := by
  split_ifs with h
  · rw [h, AList.lookup_insert]
  · exact AList.lookup_insert_ne h

theorem lookup_erase_eq (table : Table κ α) (k k' : κ) :
    AList.lookup k (AList.erase k' table) = if k = k' then none else table.lookup k := by
  split_ifs with h
  · rw [h, AList.lookup_erase]
  · exact AList.lookup_erase_ne h

/-- All entries of a kind are removed. -/
def without (drop : κ → Bool) (table : Table κ α) : Table κ α :=
  (table.keys.filter drop).foldl (fun table k => table.erase k) table

theorem lookup_foldl_erase (keys : List κ) (table : Table κ α) (k : κ) :
    AList.lookup k (keys.foldl (fun table k => AList.erase k table) table) =
      if k ∈ keys then none else table.lookup k := by
  induction keys generalizing table with
  | nil => simp
  | cons key keys ih =>
    simp only [foldl_cons, ih, lookup_erase_eq, mem_cons]
    by_cases hkeys : k ∈ keys
    · simp [hkeys]
    · by_cases hkey : k = key <;> simp [hkeys, hkey]

theorem lookup_without (drop : κ → Bool) (table : Table κ α) (k : κ) :
    AList.lookup k (table.without drop) = if drop k then none else table.lookup k := by
  simp only [without, lookup_foldl_erase, List.mem_filter, ← AList.mem_keys]
  by_cases hmem : k ∈ table
  · simp [hmem]
  · rw [AList.lookup_eq_none.mpr hmem]
    simp

end Table

/-! ## Names -/

/-- A name that is not in use, and not 0: the chosen one, or a new one. -/
def unused (used : Finset Nat) (choice : Nat) : Nat :=
  if choice ≠ 0 ∧ choice ∉ used then choice else used.sup id + 1

theorem unused_ne_zero (used : Finset Nat) (choice : Nat) : unused used choice ≠ 0 := by
  rw [unused]
  split_ifs with h
  · exact h.1
  · exact Nat.succ_ne_zero _

theorem unused_notMem (used : Finset Nat) (choice : Nat) : unused used choice ∉ used := by
  rw [unused]
  split_ifs with h
  · exact h.2
  · intro hmem
    have hle := Finset.le_sup (f := id) hmem
    exact absurd hle (Nat.not_succ_le_self _)

/-- The keys of a table are its names. -/
def Table.names {α : Type} (table : Table Nat α) : Finset Nat := table.keys.toFinset

theorem Table.mem_names {α : Type} {table : Table Nat α} {n : Nat} :
    n ∈ table.names ↔ n ∈ table := by
  rw [Table.names, List.mem_toFinset, AList.mem_keys]

theorem Table.lookup_unused {α : Type} (table : Table Nat α) (choice : Nat) :
    table.lookup (unused table.names choice) = none :=
  AList.lookup_eq_none.mpr fun h => unused_notMem _ choice (Table.mem_names.mpr h)

/-! ## Removal by a swap -/

/-- An element is replaced by the last one, which is removed. -/
def swapRemove {α : Type} (l : List α) (i : Nat) : List α :=
  match l.getLast? with
  | none => l
  | some last => (l.set i last).dropLast

open scoped List in
theorem swapRemove_perm {α : Type} {l : List α} {i : Nat} {a : α} (h : l[i]? = some a) :
    a :: swapRemove l i ~ l := by
  obtain ⟨hi, rfl⟩ := List.getElem?_eq_some_iff.mp h
  obtain ⟨init, last, rfl⟩ : ∃ init last, l = init ++ [last] := by
    refine ⟨l.dropLast, l.getLast (ne_nil_of_length_pos (by omega)), ?_⟩
    exact (dropLast_append_getLast _).symm
  rw [swapRemove, getLast?_concat]
  dsimp only
  rcases Nat.lt_or_ge i init.length with hlt | hge
  · rw [set_append_left _ _ hlt, dropLast_concat, getElem_append_left hlt]
    -- the last element is where the removed one was
    have hset : last :: init.eraseIdx i ~ init.set i last := by
      have hperm := getElem_cons_eraseIdx_perm (l := init.set i last) (by simpa using hlt)
      rwa [getElem_set_self, eraseIdx_set_eq] at hperm
    calc init[i] :: init.set i last ~ init[i] :: last :: init.eraseIdx i := hset.symm.cons _
      _ ~ last :: init[i] :: init.eraseIdx i := .swap ..
      _ ~ last :: init := (getElem_cons_eraseIdx_perm hlt).cons _
      _ ~ init ++ [last] := (perm_append_singleton last init).symm
  · have hlast : i = init.length := by
      rw [length_append, length_singleton] at hi
      omega
    subst hlast
    rw [set_append_right _ _ le_rfl, Nat.sub_self, set_cons_zero, dropLast_concat,
      getElem_concat_length rfl]
    exact (perm_append_singleton last init).symm

end Lhatove
