import Lhatove.Graphics.ParticleSystem
import Lhatove.Lib.Links

/-!
# What the pool's operations do to the particle list

The pool's pointers, read as `Links` with `pHead` and `pTail` on the ring node,
represent a list of slots. Each operation of the pool is one of the updates of
`Lib.Links`: an insertion, a removal, or the relocation of the last slot into
the hole.

- `Shape`: the list, the used slots and the counters agree;
- `insertTop_spec`, `insertBottom_spec`, `insertRandom_spec`;
- `removeParticle_spec`, `removeParticle_list`.
-/

namespace Lhatove

open Function List
open Option (bind_eq_bind bind_some map_some some_ne_none)

/-! ## Order of assignments -/

namespace Links

variable {α : Type*} [DecidableEq α]

variable {x y : Option α}

theorem setNext_comm (L : Links α) (h : x ≠ y) (v w : Option α) :
    (L.setNext x v).setNext y w = (L.setNext y w).setNext x v := by
  simp only [setNext, update_comm h]

theorem setPrev_comm (L : Links α) (h : x ≠ y) (v w : Option α) :
    (L.setPrev x v).setPrev y w = (L.setPrev y w).setPrev x v := by
  simp only [setPrev, update_comm h]

theorem insert_setPrev_last (L : Links α) (a : α) (x : Option α) (h : y ≠ some a) : L.insert a x y =
      (((L.setNext x (some a)).setPrev (some a) x).setNext (some a) y).setPrev y (some a) :=
  setPrev_comm ((L.setNext x (some a)).setNext (some a) y) h _ _

theorem insert_setNext_last (L : Links α) (a : α) (y : Option α) (h : x ≠ some a) : L.insert a x y =
      (((L.setPrev y (some a)).setNext (some a) y).setPrev (some a) x).setNext x (some a) :=
  setNext_comm ((L.setPrev y (some a)).setPrev (some a) x) h _ _

end Links

namespace Graphics

theorem u32Add_of_lt {a b : Nat} (h : a + b < 2 ^ 32) : u32Add a b = a + b := Nat.mod_eq_of_lt h

theorem u32Sub_of_le {a b : Nat} (h : b ≤ a) (ha : a < 2 ^ 32) : u32Sub a b = a - b := by
  unfold u32Sub
  omega

namespace Pool

variable {F D : Type}

/-! ## The pool as links -/

/-- The pool's pointers, with the two list ends at the ring node. -/
def links (s : Pool F D) : Links Addr where
  next
    | none => s.pHead
    | some a => (s.mem a).next
  prev
    | none => s.pTail
    | some a => (s.mem a).prev

/-- `if (x) x->next = v; else pHead = v;` -/
def setNext (s : Pool F D) : Ptr → Ptr → Pool F D
  | none, v => { s with pHead := v }
  | some a, v => s.modify a fun q => { q with next := v }

/-- `if (x) x->prev = v; else pTail = v;` -/
def setPrev (s : Pool F D) : Ptr → Ptr → Pool F D
  | none, v => { s with pTail := v }
  | some a, v => s.modify a fun q => { q with prev := v }

/-- Everything in the pool but the links. -/
structure Rest (F D : Type) where
  blocks : Nat
  pMem : Ptr
  pFree : Ptr
  maxParticles : Nat
  activeParticles : Nat
  data : Addr → F × D

/-- What a particle carries besides its links. -/
def data (s : Pool F D) (a : Addr) : F × D := ((s.mem a).life, (s.mem a).body)

def rest (s : Pool F D) : Rest F D where
  blocks := s.blocks
  pMem := s.pMem
  pFree := s.pFree
  maxParticles := s.maxParticles
  activeParticles := s.activeParticles
  data := s.data

@[simp] theorem links_setNext (s : Pool F D) (x v : Ptr) :
    (s.setNext x v).links = s.links.setNext x v := by
  cases x with
  | none =>
    refine congrArg₂ Links.mk (funext fun y => ?_) (funext fun y => ?_)
    · cases y <;> simp [setNext, links]
    · cases y <;> rfl
  | some a =>
    refine congrArg₂ Links.mk (funext fun y => ?_) (funext fun y => ?_)
    · cases y with
      | none => simp [setNext, modify, links]
      | some b =>
        by_cases hb : b = a
        · subst hb; simp [setNext, modify, links]
        · simp [setNext, modify, links, hb]
    · cases y with
      | none => rfl
      | some b =>
        by_cases hb : b = a
        · subst hb; simp [setNext, modify, links]
        · simp [setNext, modify, links, update_of_ne hb]

@[simp] theorem links_setPrev (s : Pool F D) (x v : Ptr) :
    (s.setPrev x v).links = s.links.setPrev x v := by
  cases x with
  | none =>
    refine congrArg₂ Links.mk (funext fun y => ?_) (funext fun y => ?_)
    · cases y <;> rfl
    · cases y <;> simp [setPrev, links]
  | some a =>
    refine congrArg₂ Links.mk (funext fun y => ?_) (funext fun y => ?_)
    · cases y with
      | none => rfl
      | some b =>
        by_cases hb : b = a
        · subst hb; simp [setPrev, modify, links]
        · simp [setPrev, modify, links, update_of_ne hb]
    · cases y with
      | none => simp [setPrev, modify, links]
      | some b =>
        by_cases hb : b = a
        · subst hb; simp [setPrev, modify, links]
        · simp [setPrev, modify, links, hb]

variable {f : Particle F D → Particle F D}

theorem data_modify (s : Pool F D) (a : Addr)
    (hf : ∀ q, (f q).life = q.life ∧ (f q).body = q.body) : (s.modify a f).data = s.data := by
  refine funext fun b => ?_
  by_cases hb : b = a
  · subst hb; simp [data, modify, hf]
  · simp [data, modify, update_of_ne hb]

@[simp] theorem rest_setNext (s : Pool F D) (x v : Ptr) : (s.setNext x v).rest = s.rest := by
  cases x with
  | none => rfl
  | some a =>
    have hdata : (s.setNext (some a) v).data = s.data :=
      data_modify s a (f := fun q => { q with next := v }) fun _ => ⟨rfl, rfl⟩
    rw [rest, hdata]
    rfl

@[simp] theorem rest_setPrev (s : Pool F D) (x v : Ptr) : (s.setPrev x v).rest = s.rest := by
  cases x with
  | none => rfl
  | some a =>
    have hdata : (s.setPrev (some a) v).data = s.data :=
      data_modify s a (f := fun q => { q with prev := v }) fun _ => ⟨rfl, rfl⟩
    rw [rest, hdata]
    rfl

variable {s' : Pool F D} {a : Addr}

theorem Allocated.of_rest {s : Pool F D} (h : s'.rest = s.rest)
    (ha : s.Allocated a) : s'.Allocated a := by
  have h₁ : s'.pMem = s.pMem := congrArg Rest.pMem h
  have h₂ : s'.maxParticles = s.maxParticles := congrArg Rest.maxParticles h
  exact ⟨h₁.trans ha.1, h₂ ▸ ha.2⟩

theorem Allocated.setNext {s : Pool F D} (ha : s.Allocated a) (x v : Ptr) :
    (s.setNext x v).Allocated a := ha.of_rest (rest_setNext s x v)

theorem Allocated.setPrev {s : Pool F D} (ha : s.Allocated a) (x v : Ptr) :
    (s.setPrev x v).Allocated a := ha.of_rest (rest_setPrev s x v)

/-! ## Accesses that do not fault -/

theorem load_eq {s : Pool F D} (h : s.Allocated a) : s.load (some a) = some (s.mem a) := if_pos h

theorem store_eq {s : Pool F D} (h : s.Allocated a) (f : Particle F D → Particle F D) :
    s.store f (some a) = some (s.modify a f) := if_pos h

theorem storeNext_eq {s : Pool F D} (h : s.Allocated a) (v : Ptr) :
    s.storeNext (some a) v = some (s.setNext (some a) v) := if_pos h

theorem storePrev_eq {s : Pool F D} (h : s.Allocated a) (v : Ptr) :
    s.storePrev (some a) v = some (s.setPrev (some a) v) := if_pos h

/-- The pointer is null or may be followed. -/
def Valid (s : Pool F D) (x : Ptr) : Prop := ∀ a, x = some a → s.Allocated a

theorem linkFromPrev_eq {s : Pool F D} {p : Addr} (hp : s.Allocated p)
    (hx : s.Valid (s.mem p).prev) (v : Ptr) :
    s.linkFromPrev p v = some (s.setNext (s.mem p).prev v) := by
  unfold linkFromPrev
  rw [load_eq hp]
  change (if (s.mem p).prev = none then _ else _) = _
  cases hq : (s.mem p).prev with
  | none => rfl
  | some a =>
    exact storeNext_eq (hx a hq) v

theorem linkFromNext_eq {s : Pool F D} {p : Addr} (hp : s.Allocated p)
    (hx : s.Valid (s.mem p).next) (v : Ptr) :
    s.linkFromNext p v = some (s.setPrev (s.mem p).next v) := by
  unfold linkFromNext
  rw [load_eq hp]
  change (if (s.mem p).next = none then _ else _) = _
  cases hq : (s.mem p).next with
  | none => rfl
  | some a =>
    exact storePrev_eq (hx a hq) v

/-! ## The list and the slots -/

/-- The pool's list is `l`, and its nodes are the used slots. -/
structure Shape (s : Pool F D) (l : List Addr) : Prop where
  links : s.links.Repr l
  pMem : ∃ b, s.pMem = some ⟨b, 0⟩
  mem_iff : ∀ a, a ∈ l ↔ s.pMem = some ⟨a.block, 0⟩ ∧ a.slot < s.activeParticles
  free : s.pFree = Ptr.add s.pMem s.activeParticles
  le : s.activeParticles ≤ s.maxParticles
  limit : s.maxParticles ≤ maxParticlesLimit

namespace Shape

variable {s : Pool F D} {l : List Addr}

theorem allocated (h : s.Shape l) {a : Addr} (ha : a ∈ l) : s.Allocated a :=
  ⟨((h.mem_iff a).mp ha).1, lt_of_lt_of_le ((h.mem_iff a).mp ha).2 h.le⟩

theorem valid_getElem? (h : s.Shape l) (k : Nat) : s.Valid l[k]? :=
  fun _ ha => h.allocated (mem_of_getElem? ha)

theorem valid_before (h : s.Shape l) (k : Nat) : s.Valid (Links.before l k) := by
  cases k with
  | zero => intro a ha; cases ha
  | succ k => exact h.valid_getElem? k

theorem length (h : s.Shape l) : l.length = s.activeParticles := by
  obtain ⟨b, hb⟩ := h.pMem
  have hperm : l.Perm ((List.range s.activeParticles).map (Addr.mk b)) := by
    refine (perm_ext_iff_of_nodup h.links.nodup ?_).mpr fun a => ?_
    · exact nodup_range.map fun i j hij => (Addr.mk.inj hij).2
    · rw [h.mem_iff, hb, mem_map]
      constructor
      · rintro ⟨hblock, hslot⟩
        cases a
        cases hblock
        exact ⟨_, mem_range.mpr hslot, rfl⟩
      · rintro ⟨i, hi, rfl⟩
        exact ⟨rfl, mem_range.mp hi⟩
  rw [hperm.length_eq, length_map, length_range]

theorem prev_at (h : s.Shape l) {k : Nat} {p : Addr} (hp : l[k]? = some p) :
    (s.mem p).prev = Links.before l k := by
  obtain ⟨hk, rfl⟩ := List.getElem?_eq_some_iff.mp hp
  exact h.links.prev_getElem hk

theorem next_at (h : s.Shape l) {k : Nat} {p : Addr} (hp : l[k]? = some p) :
    (s.mem p).next = l[k + 1]? := by
  obtain ⟨hk, rfl⟩ := List.getElem?_eq_some_iff.mp hp
  exact h.links.next_getElem hk

theorem free_slot (h : s.Shape l) (hroom : s.activeParticles < s.maxParticles) :
    ∃ p, s.pFree = some p ∧ s.Allocated p ∧ p ∉ l ∧ p.slot = s.activeParticles := by
  obtain ⟨b, hb⟩ := h.pMem
  refine ⟨⟨b, s.activeParticles⟩, ?_, ⟨hb, hroom⟩, fun hmem => ?_, rfl⟩
  · rw [h.free, hb, Ptr.add, map_some, Nat.zero_add]
  · exact lt_irrefl _ ((h.mem_iff _).mp hmem).2

end Shape

/-! ## Insertion -/

/-- What the three insertions have in common: `p` enters the list at position
`k`, and nothing else happens. -/
def Inserts (s s' : Pool F D) (p : Addr) (x y : Ptr) : Prop :=
  s'.links = s.links.insert p x y ∧ s'.rest = s.rest

variable {s : Pool F D} {l : List Addr} {p : Addr}

theorem insertTop_first (hhead : s.pHead = none) (hp : s.Allocated p) :
    ∃ s', s.insertTop p = some s' ∧ s.Inserts s' p none none := by
  refine ⟨(((s.setNext none (some p)).setPrev (some p) none).setNext (some p) none).setPrev
    none (some p), ?_, ?_, by simp⟩
  · unfold insertTop
    rw [if_pos hhead]
    change ((s.setNext none (some p)).storePrev (some p) none >>= _) = _
    rw [storePrev_eq (hp.setNext _ _), bind_eq_bind, bind_some]
    beta_reduce
    rw [storeNext_eq ((hp.setNext _ _).setPrev _ _)]
    rfl
  · rw [Links.insert_setPrev_last _ _ _ (some_ne_none p).symm]
    simp only [links_setNext, links_setPrev]

theorem insertTop_after {t : Addr} (hhead : s.pHead ≠ none) (htail : s.pTail = some t)
    (ht : s.Allocated t) (hp : s.Allocated p) :
    ∃ s', s.insertTop p = some s' ∧ s.Inserts s' p (some t) none := by
  refine ⟨(((s.setNext (some t) (some p)).setPrev (some p) (some t)).setNext (some p)
    none).setPrev none (some p), ?_, ?_, by simp⟩
  · unfold insertTop
    rw [if_neg hhead, htail, storeNext_eq ht]
    change ((s.setNext (some t) (some p)).storePrev (some p) s.pTail >>= _) = _
    rw [htail, storePrev_eq (hp.setNext _ _), bind_eq_bind, bind_some]
    beta_reduce
    rw [storeNext_eq ((hp.setNext _ _).setPrev _ _)]
    rfl
  · rw [Links.insert_setPrev_last _ _ _ (some_ne_none p).symm]
    simp only [links_setNext, links_setPrev]

theorem insertTop_spec (hl : s.links.Repr l) (hvalid : s.Valid s.pTail) (hp : s.Allocated p) :
    ∃ s', s.insertTop p = some s' ∧ s.Inserts s' p (Links.before l l.length) l[l.length]? := by
  have hx : Links.before l l.length = s.pTail := (Links.before_length l).trans hl.prev_none.symm
  rw [hx, getElem?_eq_none le_rfl]
  cases htail : s.pTail with
  | none =>
    refine insertTop_first ?_ hp
    have : l = [] := getLast?_eq_none_iff.mp (hl.prev_none.symm.trans htail)
    exact hl.next_none.trans (by rw [this]; rfl)
  | some t =>
    refine insertTop_after (fun hhead => ?_) htail (hvalid t htail) hp
    have : l = [] := head?_eq_none_iff.mp (hl.next_none.symm.trans hhead)
    rw [this] at hl
    exact some_ne_none t (htail.symm.trans hl.prev_none)

theorem insertBottom_first (htail : s.pTail = none) (hp : s.Allocated p) :
    ∃ s', s.insertBottom p = some s' ∧ s.Inserts s' p none none := by
  refine ⟨(((s.setPrev none (some p)).setNext (some p) none).setPrev (some p) none).setNext
    none (some p), ?_, ?_, by simp⟩
  · unfold insertBottom
    rw [if_pos htail]
    change ((s.setPrev none (some p)).storeNext (some p) none >>= _) = _
    rw [storeNext_eq (hp.setPrev _ _), bind_eq_bind, bind_some]
    beta_reduce
    rw [storePrev_eq ((hp.setPrev _ _).setNext _ _)]
    rfl
  · rw [Links.insert_setNext_last _ _ _ (some_ne_none p).symm]
    simp only [links_setNext, links_setPrev]

theorem insertBottom_before {t : Addr} (htail : s.pTail ≠ none) (hhead : s.pHead = some t)
    (ht : s.Allocated t) (hp : s.Allocated p) :
    ∃ s', s.insertBottom p = some s' ∧ s.Inserts s' p none (some t) := by
  refine ⟨(((s.setPrev (some t) (some p)).setNext (some p) (some t)).setPrev (some p)
    none).setNext none (some p), ?_, ?_, by simp⟩
  · unfold insertBottom
    rw [if_neg htail, hhead, storePrev_eq ht]
    change ((s.setPrev (some t) (some p)).storeNext (some p) s.pHead >>= _) = _
    rw [hhead, storeNext_eq (hp.setPrev _ _), bind_eq_bind, bind_some]
    beta_reduce
    rw [storePrev_eq ((hp.setPrev _ _).setNext _ _)]
    rfl
  · rw [Links.insert_setNext_last _ _ _ (some_ne_none p).symm]
    simp only [links_setNext, links_setPrev]

theorem insertBottom_spec (hl : s.links.Repr l) (hvalid : s.Valid s.pHead) (hp : s.Allocated p) :
    ∃ s', s.insertBottom p = some s' ∧ s.Inserts s' p (Links.before l 0) l[0]? := by
  rw [Links.before_zero, ← head?_eq_getElem?, ← hl.next_none]
  change ∃ s', s.insertBottom p = some s' ∧ s.Inserts s' p none s.pHead
  cases hhead : s.pHead with
  | none =>
    refine insertBottom_first ?_ hp
    have : l = [] := head?_eq_none_iff.mp (hl.next_none.symm.trans hhead)
    exact hl.prev_none.trans (by rw [this]; rfl)
  | some t =>
    refine insertBottom_before (fun htail => ?_) hhead (hvalid t hhead) hp
    have : l = [] := getLast?_eq_none_iff.mp (hl.prev_none.symm.trans htail)
    rw [this] at hl
    exact some_ne_none t (hhead.symm.trans hl.next_none)

theorem insertRandom_before {t : Addr} {rand : Nat}
    (hpos : rand % (s.activeParticles + 1) = s.activeParticles) (hhead : s.pHead = some t)
    (ht : s.Allocated t) (hp : s.Allocated p) :
    ∃ s', s.insertRandom rand p = some s' ∧ s.Inserts s' p none (some t) := by
  unfold insertRandom
  refine ⟨(((s.setPrev (some t) (some p)).setPrev (some p) none).setNext
    (some p) (some t)).setNext none (some p), ?_, ?_, by simp⟩
  · rw [if_pos hpos, hhead, if_neg (some_ne_none t),
      storePrev_eq ht, bind_eq_bind, bind_some]
    beta_reduce
    rw [storePrev_eq (hp.setPrev _ _), bind_some]
    exact congrArg (Option.bind · _) (storeNext_eq ((hp.setPrev _ _).setPrev _ _) _)
  · rw [Links.insert_setNext_last _ _ _ (some_ne_none p).symm]
    simp only [links_setNext, links_setPrev]
    rfl

theorem insertRandom_after {rand : Nat} (hpos : rand % (s.activeParticles + 1) ≠ s.activeParticles)
    (ha : Ptr.add s.pMem (rand % (s.activeParticles + 1)) = some a) (hal : s.Allocated a)
    (hnext : s.Valid (s.mem a).next) (hp : s.Allocated p) :
    ∃ s', s.insertRandom rand p = some s' ∧ s.Inserts s' p (some a) (s.mem a).next := by
  unfold insertRandom
  refine ⟨(((s.setNext (some a) (some p)).setPrev (s.mem a).next (some p)).setPrev
    (some p) (some a)).setNext (some p) (s.mem a).next, ?_, ?_, by simp⟩
  · rw [if_neg hpos, ha]
    simp only [load_eq hal, bind_eq_bind, bind_some, storeNext_eq hal]
    cases hy : (s.mem a).next with
    | none =>
      change ((((s.setNext (some a) (some p)).setPrev none (some p)).storePrev (some p) _).bind
        _) = _
      rw [storePrev_eq ((hp.setNext _ _).setPrev _ _), bind_some]
      exact storeNext_eq (((hp.setNext _ _).setPrev _ _).setPrev _ _) _
    | some y =>
      have hyv : s.Allocated y := hnext y hy
      rw [if_neg (some_ne_none y), storePrev_eq (hyv.setNext _ _), bind_some,
        storePrev_eq ((hp.setNext _ _).setPrev _ _), bind_some]
      exact storeNext_eq (((hp.setNext _ _).setPrev _ _).setPrev _ _) _
  · simp only [links_setNext, links_setPrev]
    rfl

theorem insertRandom_spec (hl : s.links.Repr l) (hvalid : ∀ a ∈ l, s.Allocated a)
    (hslot : ∀ i < s.activeParticles, ∃ a ∈ l, Ptr.add s.pMem i = some a) (hne : l ≠ [])
    (hp : s.Allocated p) (rand : Nat) :
    ∃ k ≤ l.length, ∃ s', s.insertRandom rand p = some s' ∧
      s.Inserts s' p (Links.before l k) l[k]? := by
  by_cases hpos : rand % (s.activeParticles + 1) = s.activeParticles
  · obtain ⟨t, rest, rfl⟩ := exists_cons_of_ne_nil hne
    have hhead : s.pHead = some t := hl.next_none
    exact ⟨0, Nat.zero_le _, insertRandom_before hpos hhead (hvalid t mem_cons_self) hp⟩
  · have hlt : rand % (s.activeParticles + 1) < s.activeParticles :=
      lt_of_le_of_ne (Nat.le_of_lt_succ (Nat.mod_lt _ (Nat.succ_pos _))) hpos
    obtain ⟨a, ha, hpA⟩ := hslot _ hlt
    obtain ⟨i, hi, rfl⟩ := mem_iff_getElem.mp ha
    have hnext : (s.mem l[i]).next = l[i + 1]? := hl.next_getElem hi
    have hafter := insertRandom_after hpos hpA (hvalid _ ha)
      (by rw [hnext]; exact fun b hb => hvalid b (mem_of_getElem? hb)) hp
    rw [hnext] at hafter
    refine ⟨i + 1, hi, ?_⟩
    rw [Links.before_succ, getElem?_eq_getElem hi]
    exact hafter

theorem Shape.grow (h : s.Shape l) (hroom : s.activeParticles < s.maxParticles)
    (hp : s.pFree = some p) {k : Nat} (hk : k ≤ l.length)
    (hlinks : s'.links = s.links.insert p (Links.before l k) l[k]?) (hpMem : s'.pMem = s.pMem)
    (hcap : s'.maxParticles = s.maxParticles) (hfree : s'.pFree = Ptr.add s.pFree 1)
    (hcount : s'.activeParticles = u32Add s.activeParticles 1) : s'.Shape (l.insertIdx k p) := by
  obtain ⟨b, hb⟩ := h.pMem
  have hactive : u32Add s.activeParticles 1 = s.activeParticles + 1 := by
    refine u32Add_of_lt ?_
    have := h.limit
    unfold maxParticlesLimit at this
    omega
  obtain rfl : p = ⟨b, s.activeParticles⟩ := by
    rw [h.free, hb, Ptr.add, map_some, Nat.zero_add] at hp
    exact (Option.some.inj hp).symm
  have hpl : (⟨b, s.activeParticles⟩ : Addr) ∉ l :=
    fun hmem => lt_irrefl _ ((h.mem_iff _).mp hmem).2
  refine ⟨?_, ⟨b, hpMem.trans hb⟩, fun a => ?_, ?_, ?_, hcap.trans_le h.limit⟩
  · rw [hlinks]
    exact h.links.insertIdx hpl hk
  · rw [mem_insertIdx hk, h.mem_iff, hpMem, hcount, hactive, hb]
    constructor
    · rintro (rfl | ⟨hblock, hslot⟩)
      · exact ⟨rfl, Nat.lt_succ_self _⟩
      · exact ⟨hblock, Nat.lt_succ_of_lt hslot⟩
    · rintro ⟨hblock, hslot⟩
      rcases Nat.lt_succ_iff_lt_or_eq.mp hslot with hlt | heq
      · exact .inr ⟨hblock, hlt⟩
      · cases a
        cases hblock
        exact .inl (congrArg (Addr.mk _) heq)
  · rw [hfree, hpMem, hcount, hactive, h.free, hb]
    rfl
  · rw [hcount, hcap, hactive]
    exact hroom

theorem links_modify (s : Pool F D) (a : Addr)
    (hf : ∀ q, (f q).next = q.next ∧ (f q).prev = q.prev) : (s.modify a f).links = s.links := by
  refine congrArg₂ Links.mk (funext fun y => ?_) (funext fun y => ?_)
  all_goals
    cases y with
    | none => rfl
    | some b =>
      by_cases hb : b = a
      · subst hb; simp [modify, hf]
      · simp [modify, hb]

theorem Shape.modify (h : s.Shape l) (a : Addr)
    (hf : ∀ q, (f q).next = q.next ∧ (f q).prev = q.prev) : (s.modify a f).Shape l :=
  ⟨links_modify s a hf ▸ h.links, h.pMem, h.mem_iff, h.free, h.le, h.limit⟩

/-! ## Removal -/

theorem links_activeParticles (s : Pool F D) (n : Nat) :
    links { s with activeParticles := n } = s.links := rfl

theorem data_activeParticles (s : Pool F D) (n : Nat) :
    data { s with activeParticles := n } = s.data := rfl

theorem links_copy (s : Pool F D) (p q : Addr) :
    (s.modify p fun _ => s.mem q).links =
      (s.links.setNext (some p) (s.mem q).next).setPrev (some p) (s.mem q).prev := by
  refine congrArg₂ Links.mk (funext fun y => ?_) (funext fun y => ?_)
  all_goals
    cases y with
    | none => rfl
    | some b =>
      by_cases hb : b = p
      · subst hb; simp [modify, links, Links.setNext]
      · simp [modify, links, Links.setNext, hb]

theorem data_copy (s : Pool F D) (p q a : Addr) :
    (s.modify p fun _ => s.mem q).data a = if a = p then s.data q else s.data a := by
  by_cases ha : a = p
  · subst ha; simp [data, modify]
  · simp [data, modify, ha]

/-- The links without a particle. -/
def unlinked (s : Pool F D) (p : Addr) : Links Addr :=
  s.links.skip (s.mem p).prev (s.mem p).next

/-- The first half of `removeParticle`: the list is closed over the particle. -/
theorem unlink_eq (hp : s.Allocated p) (hx : s.Valid (s.mem p).prev) (hy : s.Valid (s.mem p).next)
    (hne : (s.mem p).prev ≠ some p) :
    s.linkFromPrev p (s.mem p).next = some (s.setNext (s.mem p).prev (s.mem p).next) ∧
    (s.setNext (s.mem p).prev (s.mem p).next).linkFromNext p
        ((s.setNext (s.mem p).prev (s.mem p).next).mem p).prev =
      some ((s.setNext (s.mem p).prev (s.mem p).next).setPrev (s.mem p).next (s.mem p).prev) := by
  -- the first assignment leaves the links of `p` itself alone
  have hnext : ((s.setNext (s.mem p).prev (s.mem p).next).mem p).next = (s.mem p).next := by
    change (s.setNext _ _).links.next (some p) = _
    rw [links_setNext]
    exact update_of_ne hne.symm _ _
  have hprev : ((s.setNext (s.mem p).prev (s.mem p).next).mem p).prev = (s.mem p).prev := by
    change (s.setNext _ _).links.prev (some p) = _
    rw [links_setNext]
    rfl
  constructor
  · exact linkFromPrev_eq hp hx _
  · rw [linkFromNext_eq (hp.setNext _ _), hnext, hprev]
    rw [hnext]
    exact fun a ha => (hy a ha).setNext _ _

theorem relocate_eq {q : Addr} (hp : s.Allocated p) (hx : s.Valid (s.mem q).prev)
    (hxp : (s.mem q).prev ≠ some p) (hy : s.Valid (s.mem q).next) (hyp : (s.mem q).next ≠ some p) :
    ∃ s', ((s.modify p fun _ => s.mem q).linkFromPrev p (some p)).bind
        (fun s => s.linkFromNext p (some p)) = some s' ∧
      s'.links = s.links.insert p (s.mem q).prev (s.mem q).next ∧
      s'.rest = (s.modify p fun _ => s.mem q).rest := by
  have hcopy := links_copy s p q
  set s₁ := s.modify p fun _ => s.mem q with hs₁
  have hal : ∀ a, s.Allocated a → s₁.Allocated a := fun a ha => ha
  have hprev₁ : (s₁.mem p).prev = (s.mem q).prev := by
    change s₁.links.prev (some p) = _
    rw [hcopy]
    exact update_self ..
  have hnext₁ : ((s₁.setNext (s.mem q).prev (some p)).mem p).next = (s.mem q).next := by
    change (s₁.setNext _ _).links.next (some p) = _
    rw [links_setNext, hcopy]
    exact (update_of_ne hxp.symm _ _).trans (update_self ..)
  refine ⟨(s₁.setNext (s.mem q).prev (some p)).setPrev (s.mem q).next (some p), ?_, ?_, by simp⟩
  · rw [linkFromPrev_eq (hal p hp) (by rw [hprev₁]; exact fun a ha => hal a (hx a ha)), hprev₁,
      bind_some, linkFromNext_eq ((hal p hp).setNext _ _), hnext₁]
    rw [hnext₁]
    exact fun a ha => (hal a (hy a ha)).setNext _ _
  · rw [Links.insert, Links.setNext_comm _ hxp, Links.setPrev_comm _ hyp, links_setPrev,
      links_setNext, hcopy]
    rfl

/-- Without its last slot `q` the pool still has a list of its used slots, once
`q` is out of the list. -/
theorem Shape.shrink (h : s.Shape l) (hne : l ≠ []) :
    ∃ q ∈ l, Ptr.pred s.pFree = some q ∧ ∀ {s' : Pool F D} {l' : List Addr},
      s'.links.Repr l' → (∀ a, a ∈ l' ↔ a ∈ l ∧ a ≠ q) → s'.pMem = s.pMem →
      s'.maxParticles = s.maxParticles → s'.pFree = some q →
      s'.activeParticles = u32Sub s.activeParticles 1 → s'.Shape l' := by
  obtain ⟨b, hb⟩ := h.pMem
  have hn : 0 < s.activeParticles := by rw [← h.length]; exact length_pos_of_ne_nil hne
  have hmax : s.activeParticles < 2 ^ 32 := by
    have := h.le; have := h.limit; unfold maxParticlesLimit at this; omega
  have hactive := u32Sub_of_le (show 1 ≤ s.activeParticles by omega) hmax
  have hfree : Ptr.pred s.pFree = some ⟨b, s.activeParticles - 1⟩ := by
    rw [h.free, hb, Ptr.add, Ptr.pred, map_some, map_some, Nat.zero_add]
  refine ⟨⟨b, s.activeParticles - 1⟩, (h.mem_iff _).mpr ⟨hb, Nat.sub_lt hn Nat.one_pos⟩, hfree, ?_⟩
  intro s' l' hlinks hmem hpMem hcap hfree' hcount
  refine ⟨hlinks, ⟨b, hpMem.trans hb⟩, fun a => ?_, ?_, ?_, hcap.trans_le h.limit⟩
  · rw [hmem, h.mem_iff, hcount, hactive, hpMem, hb]
    constructor
    · rintro ⟨⟨hblock, hslot⟩, hne⟩
      refine ⟨hblock, lt_of_le_of_ne (by omega) fun heq => hne ?_⟩
      cases a
      cases hblock
      exact congrArg (Addr.mk _) heq
    · rintro ⟨hblock, hslot⟩
      refine ⟨⟨hblock, by omega⟩, fun heq => ?_⟩
      rw [heq] at hslot
      exact lt_irrefl _ hslot
  · rw [hfree', hpMem, hcount, hactive, hb, Ptr.add, map_some, Nat.zero_add]
  · rw [hcount, hcap, hactive]
    exact (Nat.sub_le _ _).trans h.le

/-- Where a particle is once slot `q` has moved to `p`. -/
def moved (q p a : Addr) : Addr := if a = q then p else a

theorem moved_self (p : Addr) : moved p p = id := by
  funext a
  by_cases ha : a = p
  · rw [moved, if_pos ha, ha, id]
  · rw [moved, if_neg ha, id]

theorem set_eq_map_moved (hnodup : l.Nodup) {q : Addr} {j : Nat} (hj : l[j]? = some q) :
    l.set j p = l.map (moved q p) := by
  refine ext_getElem? fun i => ?_
  obtain ⟨hlt, hget⟩ := List.getElem?_eq_some_iff.mp hj
  rw [List.getElem?_map]
  by_cases hij : j = i
  · subst hij
    rw [getElem?_set_self hlt, hj, map_some, moved, if_pos rfl]
  · rw [getElem?_set_ne hij]
    cases ha : l[i]? with
    | none => rfl
    | some a =>
      obtain ⟨hi, rfl⟩ := List.getElem?_eq_some_iff.mp ha
      have hne : l[i] ≠ q := fun heq => hij ((hnodup.getElem_inj_iff).mp (hget.trans heq.symm))
      rw [map_some, moved, if_neg hne]

/-- **What `removeParticle` does** where the neighbours of the particle, and those
of the particle in the last slot `q`, can be reached. -/
theorem removeParticle_eq {q : Addr} (hp : s.Allocated p) (hq : s.Allocated q)
    (hfree : Ptr.pred s.pFree = some q) (hx : s.Valid (s.mem p).prev) (hy : s.Valid (s.mem p).next)
    (hne : (s.mem p).prev ≠ some p)
    (hlast : p ≠ q → s.Valid ((s.unlinked p).prev (some q)) ∧ (s.unlinked p).prev (some q) ≠ some p ∧
      s.Valid ((s.unlinked p).next (some q)) ∧ (s.unlinked p).next (some q) ≠ some p) :
    ∃ s', s.removeParticle p = some (s', (s.mem p).next.map (moved q p)) ∧
      s'.links = (if p = q then s.unlinked p else (s.unlinked p).insert p
        ((s.unlinked p).prev (some q)) ((s.unlinked p).next (some q))) ∧
      s'.rest = { s.rest with
        pFree := some q, activeParticles := u32Sub s.activeParticles 1,
        data := fun a => if a = p then s.data q else s.data a } := by
  obtain ⟨hfirst, hsecond⟩ := unlink_eq hp hx hy hne
  set s₂ := (s.setNext (s.mem p).prev (s.mem p).next).setPrev (s.mem p).next (s.mem p).prev with hs₂
  have hlinks : s₂.links = s.unlinked p := by
    rw [hs₂, links_setPrev, links_setNext]
    rfl
  have hrest : s₂.rest = s.rest := by rw [hs₂, rest_setPrev, rest_setNext]
  have hal : ∀ a, s.Allocated a → s₂.Allocated a := fun a ha => ha.of_rest hrest
  have hnext : (s₂.mem p).next = (s.mem p).next := by
    change s₂.links.next (some p) = _
    rw [hs₂, links_setPrev, links_setNext]
    exact update_of_ne hne.symm _ _
  have hpFree : s₂.pFree = s.pFree := congrArg Rest.pFree hrest
  have hcount : s₂.activeParticles = s.activeParticles := congrArg Rest.activeParticles hrest
  have hdata : s₂.data = s.data := congrArg Rest.data hrest
  unfold removeParticle
  simp only [load_eq hp, bind_eq_bind, bind_some, hfirst,
    load_eq (hp.setNext (s.mem p).prev (s.mem p).next), hsecond, load_eq (hal p hp),
    hnext, hpFree, hfree]
  by_cases hpq : p = q
  · -- it was the last slot itself
    subst hpq
    rw [if_neg fun hne => hne rfl]
    refine ⟨{ s₂ with pFree := some p, activeParticles := u32Sub s₂.activeParticles 1 }, ?_, ?_, ?_⟩
    · rw [moved_self, Option.map_id, id]
      rfl
    · rw [if_pos rfl]
      exact hlinks
    · rw [← hrest, hcount, ← hdata]
      refine congrArg (Rest.mk _ _ _ _ _) (funext fun a => ?_)
      split
      next ha =>
        rw [ha]
        rfl
      · rfl
  · rw [if_pos (fun heq => hpq (Option.some.inj heq))]
    obtain ⟨hqx, hqxp, hqy, hqyp⟩ := hlast hpq
    rw [← hlinks] at hqx hqxp hqy hqyp
    set s₃ : Pool F D := { s₂ with pFree := some q } with hs₃
    have hal₃ : ∀ a, s.Allocated a → s₃.Allocated a := hal
    obtain ⟨s', hs', hlinks', hrest'⟩ := relocate_eq (hal₃ p hp)
      (fun a ha => hal₃ a (hqx a ha)) hqxp (fun a ha => hal₃ a (hqy a ha)) hqyp
    refine ⟨{ s' with activeParticles := u32Sub s'.activeParticles 1 }, ?_, ?_, ?_⟩
    · have hpNext : (s.mem p).next.map (moved q p) = if (s.mem p).next = some q then some p
          else (s.mem p).next := by
        cases (s.mem p).next with
        | none => rfl
        | some a =>
          by_cases ha : a = q
          · rw [map_some, moved, if_pos ha, if_pos (congrArg some ha)]
          · rw [map_some, moved, if_neg ha, if_neg fun heq => ha (Option.some.inj heq)]
      rw [load_eq (hal₃ q hq), bind_some, store_eq (hal₃ p hp), bind_some,
        ← Option.bind_assoc, hs', hpNext]
      rfl
    · rw [if_neg hpq, links_activeParticles, hlinks', ← hlinks]
      rfl
    · have hdata' : s'.data = (s₃.modify p fun _ => s₃.mem q).data := congrArg Rest.data hrest'
      have hdata₃ : s₃.data = s.data := hdata
      have hcount' : s'.activeParticles = s.activeParticles :=
        (congrArg Rest.activeParticles hrest').trans hcount
      have hblocks : s'.blocks = s.blocks :=
        (congrArg Rest.blocks hrest').trans (congrArg Rest.blocks hrest)
      have hpMem : s'.pMem = s.pMem :=
        (congrArg Rest.pMem hrest').trans (congrArg Rest.pMem hrest)
      have hcap : s'.maxParticles = s.maxParticles :=
        (congrArg Rest.maxParticles hrest').trans (congrArg Rest.maxParticles hrest)
      have hpFree' : s'.pFree = some q := congrArg Rest.pFree hrest'
      rw [rest, data_activeParticles, hdata', hcount', hblocks, hpMem, hcap, hpFree']
      refine congrArg (Rest.mk _ _ _ _ _) (funext fun a => ?_)
      rw [data_copy, hdata₃]

/-- **Removal**: the particle leaves the list, and where the last slot `q` has
moved into its slot the list follows. The other particles keep their data, and
the pointer returned is to the particle after the removed one. -/
theorem removeParticle_spec (h : s.Shape l) {k : Nat} (hp : l[k]? = some p) :
    ∃ s' q, Ptr.pred s.pFree = some q ∧
      s.removeParticle p = some (s', l[k + 1]?.map (moved q p)) ∧
      s'.Shape ((l.eraseIdx k).map (moved q p)) ∧
      ∀ a ∈ l, a ≠ p → s'.data (moved q p a) = s.data a := by
  have hpl : p ∈ l := mem_of_getElem? hp
  have hk : k < l.length := (List.getElem?_eq_some_iff.mp hp).1
  obtain ⟨q, hql, hfree, hshrink⟩ := h.shrink (List.ne_nil_of_mem hpl)
  have hprev : (s.mem p).prev = Links.before l k := h.prev_at hp
  have hnext : (s.mem p).next = l[k + 1]? := h.next_at hp
  have hx : Links.before l k ≠ some p := by
    rw [← hp, ← Links.before_succ, Ne, Links.before_inj_of_nodup h.links.nodup hk.le hk]
    omega
  have hmem := fun a => Links.mem_eraseIdx_iff_of_nodup (b := a) h.links.nodup hp
  have hpe : p ∉ l.eraseIdx k := fun hpe => ((hmem p).mp hpe).2 rfl
  have hrepr : (s.unlinked p).Repr (l.eraseIdx k) := by
    rw [unlinked, hprev, hnext]
    exact h.links.eraseIdx hk
  have hvalid : ∀ a ∈ l.eraseIdx k, s.Allocated a := fun a ha => h.allocated ((hmem a).mp ha).1
  -- the neighbours of the last slot, if that is another one
  have hlast : p ≠ q → ∃ j : Nat, (l.eraseIdx k)[j]? = some q ∧
      (s.unlinked p).prev (some q) = Links.before (l.eraseIdx k) j ∧
      (s.unlinked p).next (some q) = (l.eraseIdx k)[j + 1]? := by
    intro hpq
    have hqe : q ∈ l.eraseIdx k := (hmem q).mpr ⟨hql, fun hqp => hpq hqp.symm⟩
    obtain ⟨j, hj, rfl⟩ := mem_iff_getElem.mp hqe
    exact ⟨j, getElem?_eq_getElem hj, hrepr.prev_getElem hj, hrepr.next_getElem hj⟩
  obtain ⟨s', hrem, hlinks, hrest⟩ := removeParticle_eq (h.allocated hpl) (h.allocated hql) hfree
    (by rw [hprev]; exact h.valid_before k) (by rw [hnext]; exact h.valid_getElem? _)
    (by rw [hprev]; exact hx) fun hpq => by
      obtain ⟨j, -, hqx, hqy⟩ := hlast hpq
      rw [hqx, hqy]
      refine ⟨fun a ha => ?_, Links.before_ne_of_not_mem hpe j,
        fun a ha => hvalid a (mem_of_getElem? ha), Links.getElem?_ne_of_not_mem hpe (j + 1)⟩
      rcases j with _ | j
      · cases ha
      · exact hvalid a (mem_of_getElem? ha)
  rw [hnext] at hrem
  refine ⟨s', q, hfree, hrem, ?_, fun a _ hap => ?_⟩
  · refine hshrink ?_ ?_ (congrArg Rest.pMem hrest) (congrArg Rest.maxParticles hrest)
      (congrArg Rest.pFree hrest) (congrArg Rest.activeParticles hrest)
    · rw [hlinks]
      by_cases hpq : p = q
      · subst hpq
        rw [if_pos rfl, moved_self, List.map_id]
        exact hrepr
      · obtain ⟨j, hj, hqx, hqy⟩ := hlast hpq
        rw [if_neg hpq, hqx, hqy, ← set_eq_map_moved hrepr.nodup hj]
        exact hrepr.set hpe (List.getElem?_eq_some_iff.mp hj).1
    · intro a
      by_cases hpq : p = q
      · subst hpq
        rw [moved_self, List.map_id]
        exact hmem a
      · obtain ⟨j, hj, -, -⟩ := hlast hpq
        rw [← set_eq_map_moved hrepr.nodup hj, Links.mem_set_iff_of_nodup hrepr.nodup hj, hmem]
        by_cases hap : a = p
        · subst hap
          simp [hpl, hpq]
        · simp [hap]
  · refine (congrFun (congrArg Rest.data hrest) (moved q p a)).trans ?_
    by_cases haq : a = q
    · rw [moved, if_pos haq]
      exact (if_pos rfl).trans (congrArg s.data haq.symm)
    · rw [moved, if_neg haq]
      exact if_neg hap

/-- Removal, told by positions: the list without its entry `k`, entry by entry
with the data it had, and the pointer to what now stands at position `k`. -/
theorem removeParticle_list (h : s.Shape l) {k : Nat} (hp : l[k]? = some p) :
    ∃ s' l', s.removeParticle p = some (s', l'[k]?) ∧ s'.Shape l' ∧
      l'.map s'.data = (l.eraseIdx k).map s.data := by
  obtain ⟨s', q, -, hrem, h', hdata⟩ := removeParticle_spec h hp
  refine ⟨s', (l.eraseIdx k).map (moved q p), ?_, h', ?_⟩
  · rw [hrem, List.getElem?_map, getElem?_eraseIdx, if_neg (lt_irrefl k)]
  · rw [map_map]
    refine map_congr_left fun a ha => ?_
    obtain ⟨hal, hap⟩ := (Links.mem_eraseIdx_iff_of_nodup h.links.nodup hp).mp ha
    exact hdata a hal hap

end Pool

end Graphics

end Lhatove
