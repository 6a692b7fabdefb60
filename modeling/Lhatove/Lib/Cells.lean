import Mathlib.Tactic

/-!
# Cells

A memory is what it holds at each address. Runs of cells are read as lists, and
lists are written, where there is room for them.
-/

namespace Lhatove

section Cells

variable {α : Type}

/-- The `n` cells from `start` on. -/
def readCells (memory : Nat → α) (start n : Nat) : List α :=
  (List.range n).map fun k => memory (start + k)

/-- `data` written from `start` on. There are cells up to `capacity`; what is
written further is lost. -/
def writeCells (memory : Nat → α) (capacity start : Nat) (data : List α) : Nat → α := fun address =>
  if h : start ≤ address ∧ address < start + data.length ∧ address < capacity then
    data[address - start]
  else memory address

@[simp] theorem readCells_length (memory : Nat → α) (start n : Nat) :
    (readCells memory start n).length = n := by
  simp [readCells]

@[simp] theorem readCells_zero (memory : Nat → α) (start : Nat) : readCells memory start 0 = [] := rfl

theorem readCells_add (memory : Nat → α) (start n k : Nat) :
    readCells memory start (n + k) = readCells memory start n ++ readCells memory (start + n) k := by
  simp [readCells, List.range_add, Function.comp_def, Nat.add_assoc]

theorem readCells_writeCells {memory : Nat → α} {capacity start : Nat} {data : List α}
    (h : start + data.length ≤ capacity) :
    readCells (writeCells memory capacity start data) start data.length = data := by
  refine List.ext_getElem (readCells_length ..) fun k _ hk => ?_
  simp [readCells, writeCells, hk, show start + k < capacity by omega]

theorem readCells_writeCells_of_le {memory : Nat → α} {capacity start n start' : Nat} {data : List α}
    (h : start' + n ≤ start) :
    readCells (writeCells memory capacity start data) start' n = readCells memory start' n := by
  refine List.map_congr_left fun k hk => ?_
  have hk := List.mem_range.mp hk
  exact dif_neg fun hin => by omega

theorem writeCells_of_outside {memory : Nat → α} {capacity start address : Nat} {data : List α}
    (h : address < start ∨ start + data.length ≤ address) :
    writeCells memory capacity start data address = memory address :=
  dif_neg fun hin => by omega

theorem writeCells_readCells {memory source : Nat → α} {capacity start start' n address : Nat}
    (hcapacity : start + n ≤ capacity) (hstart : start ≤ address) (hend : address < start + n) :
    writeCells memory capacity start (readCells source start' n) address =
      source (start' + (address - start)) := by
  rw [writeCells, dif_pos ⟨hstart, by rwa [readCells_length], by omega⟩]
  simp [readCells]

theorem writeCells_append (memory : Nat → α) (capacity start : Nat) (data rest : List α) :
    writeCells (writeCells memory capacity start data) capacity (start + data.length) rest =
      writeCells memory capacity start (data ++ rest) := by
  funext address
  have hlength := @List.length_append _ data rest
  by_cases hrest : start + data.length ≤ address
  · by_cases hin : address < start + data.length + rest.length ∧ address < capacity
    · rw [writeCells, dif_pos ⟨hrest, hin⟩, writeCells, dif_pos ⟨by omega, by omega, hin.2⟩,
        List.getElem_append_right (by omega)]
      congr 1
      omega
    · rw [writeCells, dif_neg fun h => hin h.2, writeCells_of_outside (.inr hrest), writeCells,
        dif_neg fun h => hin ⟨by omega, h.2.2⟩]
  · rw [writeCells_of_outside (.inl (not_le.mp hrest))]
    by_cases hin : start ≤ address ∧ address < capacity
    · rw [writeCells, dif_pos ⟨hin.1, by omega, hin.2⟩, writeCells, dif_pos ⟨hin.1, by omega, hin.2⟩,
        List.getElem_append_left (by omega)]
    · rw [writeCells, dif_neg fun h => hin ⟨h.1, h.2.2⟩, writeCells,
        dif_neg fun h => hin ⟨h.1, h.2.2⟩]

theorem writeCells_eq_self_iff {memory : Nat → α} {capacity : Nat} {data : List α} :
    (∀ address < capacity, writeCells memory capacity 0 data address = memory address) ↔
      ∀ k (hk : k < data.length), k < capacity → memory k = data[k] := by
  constructor
  · intro h k hk hcapacity
    have hkept := h k hcapacity
    rw [writeCells, dif_pos ⟨Nat.zero_le k, by omega, hcapacity⟩] at hkept
    exact hkept.symm
  · intro h address hcapacity
    by_cases hk : address < data.length
    · rw [writeCells, dif_pos ⟨Nat.zero_le _, by omega, hcapacity⟩]
      exact (h address hk hcapacity).symm
    · exact writeCells_of_outside (.inr (by omega))

/-! ## Stores in a row -/

/-- Cells written one after the other. -/
def storeAll (memory : Nat → α) (stores : List (Nat × α)) : Nat → α :=
  stores.foldl (fun memory s => Function.update memory s.1 s.2) memory

@[simp] theorem storeAll_nil (memory : Nat → α) : storeAll memory [] = memory := rfl

@[simp] theorem storeAll_cons (memory : Nat → α) (s : Nat × α) (stores : List (Nat × α)) :
    storeAll memory (s :: stores) = storeAll (Function.update memory s.1 s.2) stores := rfl

theorem storeAll_kept {memory : Nat → α} {stores : List (Nat × α)} {address : Nat}
    (h : ∀ s ∈ stores, s.1 ≠ address) : storeAll memory stores address = memory address := by
  induction stores generalizing memory with
  | nil => rfl
  | cons s stores ih =>
    rw [storeAll_cons, ih fun t ht => h t (List.mem_cons_of_mem _ ht)]
    exact Function.update_of_ne (h s List.mem_cons_self).symm ..

theorem storeAll_stored {memory : Nat → α} {stores : List (Nat × α)} {address : Nat} {value : α}
    (hmem : ∃ s ∈ stores, s.1 = address) (h : ∀ s ∈ stores, s.1 = address → s.2 = value) :
    storeAll memory stores address = value := by
  induction stores generalizing memory with
  | nil =>
    obtain ⟨s, hs, -⟩ := hmem
    exact absurd hs List.not_mem_nil
  | cons s stores ih =>
    rw [storeAll_cons]
    have hrest : ∀ t ∈ stores, t.1 = address → t.2 = value :=
      fun t ht => h t (List.mem_cons_of_mem _ ht)
    by_cases hlater : ∃ t ∈ stores, t.1 = address
    · exact ih hlater hrest
    · -- nothing behind it is stored there
      obtain ⟨t, ht, haddress⟩ := hmem
      rcases List.mem_cons.mp ht with rfl | ht
      · rw [storeAll_kept fun t' ht' heq => hlater ⟨t', ht', heq⟩, haddress, Function.update_self]
        exact h t List.mem_cons_self haddress
      · exact absurd ⟨t, ht, haddress⟩ hlater

end Cells

end Lhatove
