import Lhatove.Lib.Links

/-!
# Links that form chains

Links that need not be those of one list: the nodes in use form chains, linked
both ways, and the ring's own node may know an end of any of them, or of none.
That much is left when a pointer program loses the head or the tail of its list
and goes on.

- `Links.Chained`: both links of a node in use agree with those of its
  neighbours, and no chain is closed;
- `Chained.insert`, `Chained.skip`, `Chained.replace`: what insertion, removal and
  relocation do to chains.
-/

namespace Lhatove.Links

open Function

universe u

variable {α : Type u}

/-- The nodes in use form chains. The ranks say that no chain is closed. -/
structure Chained (L : Links α) (used : α → Prop) : Prop where
  next : ∀ a b, used a → L.next (some a) = some b → used b ∧ L.prev (some b) = some a
  prev : ∀ a b, used a → L.prev (some a) = some b → used b ∧ L.next (some b) = some a
  head : ∀ a, used a → L.next none = some a → L.prev (some a) = none
  tail : ∀ a, used a → L.prev none = some a → L.next (some a) = none
  ranks : ∃ rank : α → ℚ, ∀ a b, used a → L.next (some a) = some b → rank a < rank b

namespace Chained

variable {L : Links α} {used : α → Prop}

theorem none_used (L : Links α) (h : ∀ a, ¬ used a) : L.Chained used :=
  ⟨fun a _ ha => absurd ha (h a), fun a _ ha => absurd ha (h a), fun a ha => absurd ha (h a),
    fun a ha => absurd ha (h a), fun _ => 0, fun a _ ha => absurd ha (h a)⟩

theorem congr (h : L.Chained used) {used' : α → Prop} (heq : ∀ a, used' a ↔ used a) :
    L.Chained used' := by
  rw [show used' = used from funext fun a => propext (heq a)]
  exact h

/-- The links the other way round. -/
def flip (L : Links α) : Links α := ⟨L.prev, L.next⟩

theorem mirror (h : L.Chained used) : (flip L).Chained used where
  next := h.prev
  prev := h.next
  head := h.tail
  tail := h.head
  ranks := by
    obtain ⟨rank, hrank⟩ := h.ranks
    refine ⟨fun a => -rank a, fun a b ha hb => neg_lt_neg ?_⟩
    obtain ⟨hub, hforth⟩ := h.prev a b ha hb
    exact hrank b a hub hforth

theorem next_ne_self (h : L.Chained used) {a : α} (ha : used a) : L.next (some a) ≠ some a := by
  intro hself
  obtain ⟨rank, hrank⟩ := h.ranks
  exact lt_irrefl _ (hrank a a ha hself)

theorem exists_rank_between (h : L.Chained used) {x y : Option α}
    (hx : ∀ a, x = some a → used a ∧ L.next (some a) = y) :
    ∃ rank : α → ℚ, (∀ a b, used a → L.next (some a) = some b → rank a < rank b) ∧
      ∃ q, (∀ a, x = some a → rank a < q) ∧ ∀ b, y = some b → q < rank b := by
  obtain ⟨rank, hrank⟩ := h.ranks
  refine ⟨rank, hrank, ?_⟩
  cases x with
  | none =>
    cases y with
    | none => exact ⟨0, nofun, nofun⟩
    | some b => exact ⟨rank b - 1, nofun, fun b' hb' => by cases hb'; linarith⟩
  | some a =>
    obtain ⟨ha, hnext⟩ := hx a rfl
    cases y with
    | none => exact ⟨rank a + 1, fun a' ha' => by cases ha'; linarith, nofun⟩
    | some b =>
      have hlt := hrank a b ha hnext
      exact ⟨(rank a + rank b) / 2, fun a' ha' => by cases ha'; linarith,
        fun b' hb' => by cases hb'; linarith⟩

variable [DecidableEq α]

theorem next_insert (L : Links α) (p : α) (x y z : Option α) :
    (L.insert p x y).next z = if z = some p then y else if z = x then some p else L.next z := by
  split
  next hp =>
    rw [hp]
    exact update_self ..
  next hp =>
    split
    next hx =>
      rw [hx]
      exact (update_of_ne (hx ▸ hp) _ _).trans (update_self ..)
    next hx =>
      exact (update_of_ne hp _ _).trans (update_of_ne hx _ _)

theorem prev_insert (L : Links α) (p : α) (x y z : Option α) :
    (L.insert p x y).prev z = if z = some p then x else if z = y then some p else L.prev z :=
  next_insert (flip L) p y x z

theorem prev_setPrev (L : Links α) (x v z : Option α) :
    (L.setPrev x v).prev z = if z = x then v else L.prev z := update_apply L.prev x v z

theorem next_skip (L : Links α) (x y z : Option α) :
    (L.skip x y).next z = if z = x then y else L.next z := update_apply L.next x y z

theorem prev_skip (L : Links α) (x y z : Option α) :
    (L.skip x y).prev z = if z = y then x else L.prev z := update_apply L.prev y x z

/-- The ring's own node may be told another end, if it is one. -/
theorem setPrev_none (h : L.Chained used) {v : Option α}
    (hv : ∀ a, used a → v = some a → L.next (some a) = none) : (L.setPrev none v).Chained used := by
  have hprev : ∀ a, (L.setPrev none v).prev (some a) = L.prev (some a) := by
    intro a
    rw [prev_setPrev, if_neg (Option.some_ne_none a)]
  refine ⟨fun a b ha hb => ?_, fun a b ha hb => ?_, fun a ha hhead => ?_, fun a ha htail => ?_,
    h.ranks⟩
  · rw [hprev]
    exact h.next a b ha hb
  · rw [hprev] at hb
    exact h.prev a b ha hb
  · rw [hprev]
    exact h.head a ha hhead
  · rw [prev_setPrev, if_pos rfl] at htail
    exact hv a ha htail

section Insertion

variable {p : α} {x y : Option α} (h : L.Chained used) (hp : ¬ used p)
  (hy : ∀ b, y = some b → used b ∧ L.prev (some b) = x)
include h hp hy

theorem next_of_insert {a b : α} (ha : used a ∨ a = p)
    (hb : (L.insert p x y).next (some a) = some b) :
    (used b ∨ b = p) ∧ (L.insert p x y).prev (some b) = some a := by
  rw [next_insert] at hb
  rw [prev_insert]
  split_ifs at hb with hap hax
  · cases Option.some.inj hap
    rw [if_neg fun heq => hp (hy p (hb.trans heq)).1, if_pos hb.symm]
    exact ⟨.inl (hy b hb).1, rfl⟩
  · cases Option.some.inj hb
    exact ⟨.inr rfl, by rw [if_pos rfl, hax]⟩
  · have ha : used a := ha.resolve_right fun heq => hap (congrArg some heq)
    obtain ⟨hub, hback⟩ := h.next a b ha hb
    have hbp : some b ≠ some p := fun heq => hp (Option.some.inj heq ▸ hub)
    have hby : some b ≠ y := fun heq => hax (hback.symm.trans (hy b heq.symm).2)
    rw [if_neg hbp, if_neg hby]
    exact ⟨.inl hub, hback⟩

omit hp in
theorem head_of_insert (hhead : L.next none ≠ some p) {a : α} (ha : used a ∨ a = p)
    (hb : (L.insert p x y).next none = some a) : (L.insert p x y).prev (some a) = none := by
  rw [next_insert, if_neg (Option.some_ne_none p).symm] at hb
  rw [prev_insert]
  split at hb
  next hx' =>
    rw [if_pos hb.symm, hx']
  next hx' =>
    have hap : a ≠ p := fun heq => hhead (heq ▸ hb)
    have hnone := h.head a (ha.resolve_right hap) hb
    rw [if_neg fun heq => hap (Option.some.inj heq), if_neg fun heq => ?_]
    · exact hnone
    · exact hx' (hnone.symm.trans (hy a heq.symm).2)

end Insertion

/-- **Insertion** of a new node between neighbours, or at an end of a chain. -/
theorem insert (h : L.Chained used) {p : α} {x y : Option α} (hp : ¬ used p)
    (hx : ∀ a, x = some a → used a ∧ L.next (some a) = y)
    (hy : ∀ b, y = some b → used b ∧ L.prev (some b) = x) (hhead : L.next none ≠ some p)
    (htail : L.prev none ≠ some p) :
    (L.insert p x y).Chained fun a => used a ∨ a = p := by
  refine ⟨fun _ _ => h.next_of_insert hp hy, fun _ _ => h.mirror.next_of_insert hp hx,
    fun _ => h.head_of_insert hy hhead, fun _ => h.mirror.head_of_insert hx htail, ?_⟩
  obtain ⟨rank, hrank, q, hqx, hqy⟩ := h.exists_rank_between hx
  refine ⟨update rank p q, fun a b ha hb => ?_⟩
  rw [next_insert] at hb
  split_ifs at hb with hap hax
  · cases Option.some.inj hap
    have hbp : b ≠ p := fun heq => hp (hy p (heq ▸ hb)).1
    rw [update_self, update_of_ne hbp]
    exact hqy b hb
  · cases Option.some.inj hb
    have hap : a ≠ p := fun heq => hap (congrArg some heq)
    rw [update_self, update_of_ne hap]
    exact hqx a hax.symm
  · have hap : a ≠ p := fun heq => hap (congrArg some heq)
    have ha : used a := ha.resolve_right hap
    have hbp : b ≠ p := fun heq => hp (heq ▸ (h.next a b ha hb).1)
    rw [update_of_ne hap, update_of_ne hbp]
    exact hrank a b ha hb

section Removal

variable {p : α} (h : L.Chained used) (hp : used p)
include h hp

theorem next_of_skip {a b : α} (ha : used a ∧ a ≠ p)
    (hb : (L.skip (L.prev (some p)) (L.next (some p))).next (some a) = some b) :
    (used b ∧ b ≠ p) ∧ (L.skip (L.prev (some p)) (L.next (some p))).prev (some b) = some a := by
  rw [next_skip] at hb
  rw [prev_skip]
  split_ifs at hb with hax
  · rw [if_pos hb.symm]
    exact ⟨⟨(h.next p b hp hb).1, fun heq => h.next_ne_self hp (heq ▸ hb)⟩, hax.symm⟩
  · obtain ⟨hub, hback⟩ := h.next a b ha.1 hb
    have hbp : b ≠ p := fun heq => hax (h.next a p ha.1 (heq ▸ hb)).2.symm
    rw [if_neg fun heq => ?_]
    · exact ⟨⟨hub, hbp⟩, hback⟩
    · exact ha.2 (Option.some.inj (hback.symm.trans (h.next p b hp heq.symm).2))

theorem head_of_skip {a : α} (ha : used a)
    (hb : (L.skip (L.prev (some p)) (L.next (some p))).next none = some a) :
    (L.skip (L.prev (some p)) (L.next (some p))).prev (some a) = none := by
  rw [next_skip] at hb
  rw [prev_skip]
  split_ifs at hb with hx
  · rw [if_pos hb.symm, ← hx]
  · have hnone := h.head a ha hb
    rw [if_neg fun heq => ?_]
    · exact hnone
    · exact Option.some_ne_none p ((h.next p a hp heq.symm).2.symm.trans hnone)

/-- The ring's own node does not know a node that its neighbours skip. -/
theorem skip_head_ne : (L.skip (L.prev (some p)) (L.next (some p))).next none ≠ some p := by
  rw [next_skip]
  split_ifs with hnone
  · exact h.next_ne_self hp
  · exact fun heq => hnone (h.head p hp heq).symm

/-- **Removal** of a node: its neighbours skip it, and an end of the ring's own
node that it has no neighbour at. -/
theorem skip : (L.skip (L.prev (some p)) (L.next (some p))).Chained fun a => used a ∧ a ≠ p := by
  refine ⟨fun _ _ => h.next_of_skip hp, fun _ _ => h.mirror.next_of_skip hp,
    fun _ ha => h.head_of_skip hp ha.1, fun _ ha => h.mirror.head_of_skip hp ha.1, ?_⟩
  obtain ⟨rank, hrank⟩ := h.ranks
  refine ⟨rank, fun a b ha hb => ?_⟩
  rw [next_skip] at hb
  split_ifs at hb with hax
  · exact (hrank a p ha.1 (h.prev p a hp hax.symm).2).trans (hrank p b hp hb)
  · exact hrank a b ha.1 hb

end Removal

theorem insert_skip (L : Links α) (p : α) (x y : Option α) :
    (L.skip x y).insert p x y = L.insert p x y := by
  refine congrArg₂ Links.mk (funext fun z => ?_) (funext fun z => ?_)
  · change ((L.skip x y).insert p x y).next z = (L.insert p x y).next z
    rw [next_insert, next_insert, next_skip]
    split_ifs <;> rfl
  · change ((L.skip x y).insert p x y).prev z = (L.insert p x y).prev z
    rw [prev_insert, prev_insert, prev_skip]
    split_ifs <;> rfl

/-- **Relocation**: a new node in the place of another. -/
theorem replace (h : L.Chained used) {p q : α} (hp : ¬ used p) (hq : used q)
    (hhead : L.next none ≠ some p) (htail : L.prev none ≠ some p) :
    (L.insert p (L.prev (some q)) (L.next (some q))).Chained
      fun a => (used a ∧ a ≠ q) ∨ a = p := by
  have hskipped := h.skip hq
  have hne := h.next_ne_self hq
  have hne' : L.prev (some q) ≠ some q := fun heq => hne (h.prev q q hq heq).2
  rw [← insert_skip]
  refine hskipped.insert (fun hup => hp hup.1) (fun a ha => ?_) (fun b hb => ?_) ?_ ?_
  · rw [next_skip, if_pos ha.symm]
    exact ⟨⟨(h.prev q a hq ha).1, fun heq => hne' (heq ▸ ha)⟩, rfl⟩
  · rw [prev_skip, if_pos hb.symm]
    exact ⟨⟨(h.next q b hq hb).1, fun heq => hne (heq ▸ hb)⟩, rfl⟩
  · rw [next_skip]
    split_ifs
    · exact fun heq => hp (h.next q p hq heq).1
    · exact hhead
  · rw [prev_skip]
    split_ifs
    · exact fun heq => hp (h.prev q p hq heq).1
    · exact htail

end Chained

end Lhatove.Links
