import Mathlib.Data.List.AList
import Mathlib.Data.List.Perm.Basic

/-!
# Tables of holders

A table whose entries each hold a token: what is held after an entry is added, replaced
or removed, and that tokens without duplicates tell the entries apart.
-/

namespace Lhatove

universe u v w

variable {κ : Type u} {β : Type v} {ι : Type w}

/-- The tokens that the entries of a table hold. -/
def held (f : β → ι) (m : AList fun _ : κ => β) : List ι := m.entries.map fun e => f e.2

variable [DecidableEq κ] {f : β → ι} {m : AList fun _ : κ => β} {k j : κ} {e e' : β}

theorem entries_perm (h : m.lookup k = some e) :
    m.entries.Perm (⟨k, e⟩ :: (m.erase k).entries) := by
  have hmem : k ∈ m.entries.keys := AList.lookup_isSome.mp (by rw [h]; rfl)
  obtain ⟨e', l₁, l₂, -, hentries, herase⟩ := List.exists_of_kerase hmem
  have hlookup : m.lookup k = some e' := by
    rw [← Option.mem_def, AList.mem_lookup_iff, hentries]
    exact List.mem_append_right _ List.mem_cons_self
  cases h.symm.trans hlookup
  change m.entries.Perm (⟨k, e⟩ :: m.entries.kerase k)
  rw [herase, hentries]
  exact List.perm_middle

theorem held_erase (h : m.lookup k = some e) :
    (held f m).Perm (f e :: held f (m.erase k)) :=
  (entries_perm h).map fun e : (_ : κ) × β => f e.2

theorem held_insert (h : m.lookup k = none) :
    held f (m.insert k e) = f e :: held f m := by
  rw [held, AList.entries_insert_of_notMem (AList.lookup_eq_none.mp h)]
  rfl

theorem held_replace (h : m.lookup k = some e) (htoken : f e' = f e) :
    (held f (m.insert k e')).Perm (held f m) := by
  rw [held, AList.entries_insert, List.map_cons]
  rw [htoken]
  exact (held_erase h).symm

theorem mem_held (h : m.lookup k = some e) : f e ∈ held f m :=
  (held_erase h).mem_iff.mpr List.mem_cons_self

theorem held_injective (hnodup : (held f m).Nodup) (hk : m.lookup k = some e)
    (hj : m.lookup j = some e') (htoken : f e = f e') : j = k := by
  by_contra hne
  have hj' : (m.erase k).lookup j = some e' := by
    rw [AList.lookup_erase_ne hne]
    exact hj
  have hnodup' := (held_erase hk).nodup_iff.mp hnodup
  rw [List.nodup_cons, htoken] at hnodup'
  exact hnodup'.1 (mem_held hj')

end Lhatove
