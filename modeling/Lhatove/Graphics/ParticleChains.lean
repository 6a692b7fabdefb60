import Lhatove.Graphics.ParticleRuns
import Lhatove.Lib.Chains

/-!
# Particles in all runs

The particle list can be lost: `insertRandom` into an empty list forgets the
tail, and a `setBufferSize` that throws the head and the tail. What all runs keep
is less than a list, but enough to say what the used slots hold.

- `Chains`: the used slots are the first ones of the block, and their links are
  those of chains of used slots;
- `Chains.addParticle`, `Chains.removeParticle`, `Chains.age`, ...: each operation
  keeps that, and whatever is true of the bodies of all particles, if what
  `initParticle` and the loop of `update` write agrees with it;
- `step_holds`: so does every call.
-/

namespace Lhatove.Graphics

namespace Pool

variable {F D : Type}

/-- The block that the pool uses has the slot of this number, or would have it. -/
def Own (s : Pool F D) (a : Addr) : Prop := s.pMem = some ⟨a.block, 0⟩

/-- The slot of an active particle. -/
def Used (s : Pool F D) (a : Addr) : Prop := s.Own a ∧ a.slot < s.activeParticles

structure Chains (s : Pool F D) : Prop where
  pMem : ∀ m, s.pMem = some m → m.slot = 0 ∧ m.block < s.blocks
  free : s.pMem ≠ none → s.pFree = Ptr.add s.pMem s.activeParticles
  le : s.activeParticles ≤ s.maxParticles
  limit : s.maxParticles ≤ maxParticlesLimit
  empty : s.pMem = none → s.maxParticles = 0
  head : ∀ a, s.pHead = some a → a.block < s.blocks ∧ (s.Own a → s.Used a)
  tail : ∀ a, s.pTail = some a → a.block < s.blocks ∧ (s.Own a → s.Used a)
  links : s.links.Chained s.Used

namespace Chains

variable {s : Pool F D}

theorem allocated (h : s.Chains) {a : Addr} (ha : s.Used a) : s.Allocated a :=
  ⟨ha.1, lt_of_lt_of_le ha.2 h.le⟩

theorem valid_next (h : s.Chains) {a : Addr} (ha : s.Used a) : s.Valid (s.mem a).next :=
  fun b hb => h.allocated (h.links.next a b ha hb).1

theorem valid_prev (h : s.Chains) {a : Addr} (ha : s.Used a) : s.Valid (s.mem a).prev :=
  fun b hb => h.allocated (h.links.prev a b ha hb).1

theorem free_slot (h : s.Chains) (hroom : s.activeParticles < s.maxParticles) :
    ∃ p, s.pFree = some p ∧ s.Allocated p ∧ p.slot = s.activeParticles := by
  cases hpMem : s.pMem with
  | none =>
    have := h.empty hpMem
    omega
  | some m =>
    obtain ⟨hslot, -⟩ := h.pMem m hpMem
    refine ⟨⟨m.block, s.activeParticles⟩, ?_, ⟨?_, hroom⟩, rfl⟩
    · rw [h.free (by rw [hpMem]; exact Option.some_ne_none m), hpMem, Ptr.add, Option.map_some,
        hslot, Nat.zero_add]
    · rw [hpMem, ← hslot]

theorem of_empty (hpMem : ∀ m, s.pMem = some m → m.slot = 0 ∧ m.block < s.blocks)
    (hfree : s.pMem ≠ none → s.pFree = s.pMem) (hcount : s.activeParticles = 0)
    (hlimit : s.maxParticles ≤ maxParticlesLimit) (hempty : s.pMem = none → s.maxParticles = 0)
    (hends : ∀ a, s.pHead = some a ∨ s.pTail = some a → a.block < s.blocks ∧ ¬ s.Own a) :
    s.Chains := by
  have hunused : ∀ a, ¬ s.Used a := by
    intro a ha
    have := ha.2
    omega
  refine ⟨hpMem, fun hne => ?_, by omega, hlimit, hempty, fun a ha => ?_, fun a ha => ?_,
    .none_used _ hunused⟩
  · rw [hfree hne, hcount]
    cases s.pMem <;> rfl
  · exact ⟨(hends a (.inl ha)).1, fun hown => absurd hown (hends a (.inl ha)).2⟩
  · exact ⟨(hends a (.inr ha)).1, fun hown => absurd hown (hends a (.inr ha)).2⟩

/-! ## Insertion -/

/-- What an insertion does to chains. -/
structure Grows (s s' : Pool F D) (p : Addr) : Prop where
  links : s'.links.Chained fun a => s.Used a ∨ a = p
  head : ∀ a, s'.pHead = some a → a = p ∨ s.pHead = some a
  tail : ∀ a, s'.pTail = some a → a = p ∨ s.pTail = some a
  rest : s'.rest = s.rest

theorem Grows.of_inserts {s s' : Pool F D} {p : Addr} {x y : Ptr} (hlinks : s.links.Chained s.Used)
    (h : s.Inserts s' p x y) (hp : ¬ s.Used p)
    (hx : ∀ a, x = some a → s.Used a ∧ (s.mem a).next = y)
    (hy : ∀ b, y = some b → s.Used b ∧ (s.mem b).prev = x)
    (hhead : s.pHead ≠ some p) (htail : s.pTail ≠ some p) : Grows s s' p := by
  refine ⟨?_, fun a ha => ?_, fun a ha => ?_, h.2⟩
  · rw [h.1]
    exact hlinks.insert hp hx hy hhead htail
  · have hnext : s'.links.next none = some a := ha
    rw [h.1, Links.Chained.next_insert, if_neg (Option.some_ne_none p).symm] at hnext
    split_ifs at hnext
    · exact .inl (Option.some.inj hnext).symm
    · exact .inr hnext
  · have hprev : s'.links.prev none = some a := ha
    rw [h.1, Links.Chained.prev_insert, if_neg (Option.some_ne_none p).symm] at hprev
    split_ifs at hprev
    · exact .inl (Option.some.inj hprev).symm
    · exact .inr hprev

theorem insertRandom_first {rand : Nat} {p : Addr}
    (hpos : rand % (s.activeParticles + 1) = s.activeParticles) (hhead : s.pHead = none)
    (hp : s.Allocated p) :
    ∃ s', s.insertRandom rand p = some s' ∧
      s'.links = (s.links.insert p none none).setPrev none s.pTail ∧ s'.rest = s.rest := by
  unfold insertRandom
  refine ⟨(((s.setPrev (some p) none).setNext (some p) none).setNext none (some p)), ?_, ?_,
    by simp⟩
  · rw [if_pos hpos, hhead, if_pos rfl, Option.bind_eq_bind]
    change ((s.storePrev (some p) none).bind _) = _
    rw [storePrev_eq hp, Option.bind_some]
    exact congrArg (Option.bind · _) (storeNext_eq (hp.setPrev _ _) _)
  · rw [Links.insert_setNext_last _ _ _ (Option.some_ne_none p).symm]
    simp only [links_setNext, links_setPrev]
    refine congrArg₂ Links.mk rfl (funext fun z => ?_)
    cases z with
    | none => simp [Links.setNext, Links.setPrev, Pool.links]
    | some b => simp [Links.setNext, Links.setPrev, Function.update_apply]

theorem storeNext_none {s : Pool F D} {t : Addr} (ht : ¬ s.Allocated t) (v : Ptr) :
    s.storeNext (some t) v = none := if_neg ht

theorem storePrev_none {s : Pool F D} {t : Addr} (ht : ¬ s.Allocated t) (v : Ptr) :
    s.storePrev (some t) v = none := if_neg ht

/-- **Insertion**, in whatever mode, unless a pointer faults. -/
theorem insert {s s' : Pool F D} {p : Addr} (hlinks : s.links.Chained s.Used)
    (hhead : ∀ a, s.pHead = some a → s.Own a → s.Used a)
    (htail : ∀ a, s.pTail = some a → s.Own a → s.Used a)
    (hle : s.activeParticles ≤ s.maxParticles) (hp : s.Allocated p) (hunused : ¬ s.Used p)
    (mode : InsertMode) (rand : Nat) (h : s.insert mode rand p = some s') : Grows s s' p := by
  have hheadp : s.pHead ≠ some p := fun heq => hunused (hhead p heq hp.1)
  have htailp : s.pTail ≠ some p := fun heq => hunused (htail p heq hp.1)
  have hal : ∀ a, s.Used a → s.Allocated a := fun a ha => ⟨ha.1, lt_of_lt_of_le ha.2 hle⟩
  have hgrows {op : Option (Pool F D)} {x y : Ptr} (hop : op = some s')
      (hins : ∃ s₁, op = some s₁ ∧ s.Inserts s₁ p x y)
      (hx : ∀ a, x = some a → s.Used a ∧ (s.mem a).next = y)
      (hy : ∀ b, y = some b → s.Used b ∧ (s.mem b).prev = x) : Grows s s' p := by
    obtain ⟨s₁, hs₁, hins⟩ := hins
    cases hs₁.symm.trans hop
    exact .of_inserts hlinks hins hunused hx hy hheadp htailp
  cases mode with
  | top =>
    change s.insertTop p = some s' at h
    by_cases hnone : s.pHead = none
    · exact hgrows h (insertTop_first hnone hp) nofun nofun
    · cases ht : s.pTail with
      | none =>
        rw [insertTop, if_neg hnone, ht] at h
        cases h
      | some t =>
        by_cases htal : s.Allocated t
        · have htused := htail t ht htal.1
          refine hgrows h (insertTop_after hnone ht htal hp) (fun a ha => ?_) nofun
          cases ha
          exact ⟨htused, hlinks.tail t htused ht⟩
        · rw [insertTop, if_neg hnone, ht, storeNext_none htal] at h
          cases h
  | bottom =>
    change s.insertBottom p = some s' at h
    by_cases hnone : s.pTail = none
    · exact hgrows h (insertBottom_first hnone hp) nofun nofun
    · cases ht : s.pHead with
      | none =>
        rw [insertBottom, if_neg hnone, ht] at h
        cases h
      | some t =>
        by_cases htal : s.Allocated t
        · have htused := hhead t ht htal.1
          refine hgrows h (insertBottom_before hnone ht htal hp) nofun (fun b hb => ?_)
          cases hb
          exact ⟨htused, hlinks.head t htused ht⟩
        · rw [insertBottom, if_neg hnone, ht, storePrev_none htal] at h
          cases h
  | random =>
    change s.insertRandom rand p = some s' at h
    by_cases hpos : rand % (s.activeParticles + 1) = s.activeParticles
    · cases ht : s.pHead with
      | none =>
        obtain ⟨s₁, hs₁, hlinks₁, hrest⟩ := insertRandom_first hpos ht hp
        obtain rfl := Option.some.inj (hs₁.symm.trans h)
        have hinserted := hlinks.insert hunused (x := none) (y := none) nofun nofun hheadp htailp
        refine ⟨?_, fun a ha => ?_, fun a ha => ?_, hrest⟩
        · rw [hlinks₁]
          refine hinserted.setPrev_none fun a ha htaila => ?_
          have hap : a ≠ p := fun heq => htailp (heq ▸ htaila)
          have hused := ha.resolve_right hap
          rw [Links.Chained.next_insert, if_neg fun heq => hap (Option.some.inj heq),
            if_neg (Option.some_ne_none a)]
          exact hlinks.tail a hused htaila
        · have hnext : s₁.links.next none = some a := ha
          rw [hlinks₁] at hnext
          change (s.links.insert p none none).next none = some a at hnext
          exact .inl (Option.some.inj hnext).symm
        · have hprev : s₁.links.prev none = some a := ha
          rw [hlinks₁, Links.Chained.prev_setPrev, if_pos rfl] at hprev
          exact .inr hprev
      | some t =>
        by_cases htal : s.Allocated t
        · have htused := hhead t ht htal.1
          refine hgrows h (insertRandom_before hpos ht htal hp) nofun (fun b hb => ?_)
          cases hb
          exact ⟨htused, hlinks.head t htused ht⟩
        · unfold insertRandom at h
          rw [if_pos hpos, ht, if_neg (Option.some_ne_none t), storePrev_none htal] at h
          cases h
    · have hlt : rand % (s.activeParticles + 1) < s.activeParticles :=
        lt_of_le_of_ne (Nat.le_of_lt_succ (Nat.mod_lt _ (Nat.succ_pos _))) hpos
      have hpMem := hp.1
      set a : Addr := ⟨p.block, rand % (s.activeParticles + 1)⟩ with ha
      have haused : s.Used a := ⟨hpMem, hlt⟩
      have hadd : Ptr.add s.pMem (rand % (s.activeParticles + 1)) = some a := by
        rw [hpMem, Ptr.add, Option.map_some, Nat.zero_add]
      refine hgrows h (insertRandom_after hpos hadd (hal a haused)
        (fun b hb => hal b (hlinks.next a b haused hb).1) hp) (fun b hb => ?_) (fun b hb => ?_)
      · cases hb
        exact ⟨haused, rfl⟩
      · exact hlinks.next a b haused hb

end Chains

/-! ## What is true of all active particles -/

/-- The pool is in order, and what its active particles carry meets `P`. -/
structure Holds (P : D → Prop) (s : Pool F D) : Prop extends Chains s where
  bodies : ∀ a, s.Used a → P (s.data a).2

namespace Holds

variable {P : D → Prop} {s : Pool F D}

theorem modify (h : s.Holds P) (a : Addr) {f : Particle F D → Particle F D}
    (hf : ∀ q, (f q).next = q.next ∧ (f q).prev = q.prev)
    (hbody : s.Used a → P (s.data a).2 → P (f (s.mem a)).body) : (s.modify a f).Holds P := by
  refine ⟨⟨h.pMem, h.free, h.le, h.limit, h.empty, h.head, h.tail, ?_⟩, fun b hb => ?_⟩
  · rw [links_modify s a hf]
    exact h.links
  · have hb : s.Used b := hb
    by_cases hba : b = a
    · subst hba
      have hbody' : ((s.modify b f).data b).2 = (f (s.mem b)).body := by
        simp [Pool.data, Pool.modify]
      rw [hbody']
      exact hbody hb (h.bodies b hb)
    · have hdata : (s.modify a f).data b = s.data b := by simp [Pool.data, Pool.modify, hba]
      rw [hdata]
      exact h.bodies b hb

theorem last_slot (h : s.Holds P) {p : Addr} (hp : s.Used p) :
    ∃ q, s.Used q ∧ Ptr.pred s.pFree = some q ∧ q.slot = s.activeParticles - 1 := by
  have hpMem := hp.1
  have hn := hp.2
  refine ⟨⟨p.block, s.activeParticles - 1⟩, ⟨hpMem, ?_⟩, ?_, rfl⟩
  · show s.activeParticles - 1 < s.activeParticles
    omega
  · rw [h.free (by rw [hpMem]; exact Option.some_ne_none _), hpMem, Ptr.add, Option.map_some,
      Ptr.pred, Option.map_some, Nat.zero_add]

theorem used_pred {p q : Addr} (hp : s.Used p) (hq : s.Used q)
    (hslot : q.slot = s.activeParticles - 1) {s' : Pool F D} (hpMem : s'.pMem = s.pMem)
    (hcount : s'.activeParticles = s.activeParticles - 1) (a : Addr) :
    s'.Used a ↔ s.Used a ∧ a ≠ q := by
  constructor
  · rintro ⟨hown, hlt⟩
    have hown : s.Own a := hpMem.symm.trans hown
    refine ⟨⟨hown, by omega⟩, ?_⟩
    rintro rfl
    omega
  · rintro ⟨⟨hown, hlt⟩, hne⟩
    refine ⟨hpMem.trans hown, lt_of_le_of_ne (by omega) fun heq => hne ?_⟩
    have hblock := (Addr.mk.inj (Option.some.inj (hown.symm.trans hq.1))).1
    cases a
    cases q
    cases hblock
    exact congrArg (Addr.mk _) (by simp only at heq hslot; omega)

/-- **Removal** of an active particle: where the last slot is moved, the pointer
to the next particle follows. -/
theorem removeParticle (h : s.Holds P) {p : Addr} (hp : s.Used p) {r : Pool F D × Ptr}
    (hrem : s.removeParticle p = some r) :
    r.1.Holds P ∧ ∀ b, r.2 = some b → r.1.Used b := by
  obtain ⟨q, hq, hfree, hslot⟩ := h.last_slot hp
  have hchained := h.links
  have hne := hchained.next_ne_self hp
  have hne' : (s.mem p).prev ≠ some p := fun heq => hne (hchained.prev p p hp heq).2
  have hskip : (s.unlinked p).Chained fun a => s.Used a ∧ a ≠ p := hchained.skip hp
  have hskipHead : (s.unlinked p).next none ≠ some p := hchained.skip_head_ne hp
  have hskipTail : (s.unlinked p).prev none ≠ some p := hchained.mirror.skip_head_ne hp
  have hskipEnds : ∀ a, (s.unlinked p).next none = some a ∨ (s.unlinked p).prev none = some a →
      a.block < s.blocks ∧ (s.Own a → s.Used a) := by
    have hused : ∀ a, s.Used a → a.block < s.blocks ∧ (s.Own a → s.Used a) :=
      fun a ha => ⟨(h.pMem _ ha.1).2, fun _ => ha⟩
    rintro a (hnext | hprev)
    · rw [unlinked, Links.Chained.next_skip] at hnext
      split_ifs at hnext
      · exact hused a (hchained.next p a hp hnext).1
      · exact h.head a hnext
    · rw [unlinked, Links.Chained.prev_skip] at hprev
      split_ifs at hprev
      · exact hused a (hchained.prev p a hp hprev).1
      · exact h.tail a hprev
  have hother (hpq : p ≠ q) : s.Used q ∧ q ≠ p := ⟨hq, hpq.symm⟩
  obtain ⟨s', hs', hlinks, hrest⟩ := removeParticle_eq (h.allocated hp) (h.allocated hq) hfree
    (h.valid_prev hp) (h.valid_next hp) hne' fun hpq => by
      have hq' := hother hpq
      refine ⟨fun a ha => ?_, fun ha => ?_, fun a ha => ?_, fun ha => ?_⟩
      · exact h.allocated (hskip.prev q a hq' ha).1.1
      · exact (hskip.prev q p hq' ha).1.2 rfl
      · exact h.allocated (hskip.next q a hq' ha).1.1
      · exact (hskip.next q p hq' ha).1.2 rfl
  cases hs'.symm.trans hrem
  have hmax : s.activeParticles < 2 ^ 32 := by
    have := h.le
    have := h.limit
    unfold maxParticlesLimit at this
    omega
  have hn := hp.2
  have hpMem : s'.pMem = s.pMem := congrArg Rest.pMem hrest
  have hcap : s'.maxParticles = s.maxParticles := congrArg Rest.maxParticles hrest
  have hblocks : s'.blocks = s.blocks := congrArg Rest.blocks hrest
  have hcount : s'.activeParticles = s.activeParticles - 1 :=
    (congrArg Rest.activeParticles hrest).trans (u32Sub_of_le (by omega) hmax)
  have hused := used_pred hp hq hslot hpMem hcount
  have hown : ∀ a, s'.Own a → s.Own a := fun a ha => hpMem.symm.trans ha
  have hp' : p ≠ q → s'.Used p := fun hpq => (hused p).mpr ⟨hp, hpq⟩
  -- the ends of the new links are nodes in use, as far as they are in the block
  have hends : ∀ a, s'.links.next none = some a ∨ s'.links.prev none = some a →
      a.block < s.blocks ∧ (s'.Own a → s'.Used a) := by
    intro a ha
    by_cases hpq : p = q
    · rw [hlinks, if_pos hpq] at ha
      refine ⟨(hskipEnds a ha).1, fun ho => (hused a).mpr ⟨(hskipEnds a ha).2 (hown a ho), ?_⟩⟩
      rintro rfl
      rcases ha with ha | ha
      · exact hskipHead (hpq ▸ ha)
      · exact hskipTail (hpq ▸ ha)
    · have hq' := hother hpq
      rw [hlinks, if_neg hpq, Links.Chained.next_insert, Links.Chained.prev_insert,
        if_neg (Option.some_ne_none p).symm, if_neg (Option.some_ne_none p).symm] at ha
      by_cases hap : a = p
      · subst hap
        exact ⟨(h.pMem _ hp.1).2, fun _ => hp' hpq⟩
      have hold : (s.unlinked p).next none = some a ∨ (s.unlinked p).prev none = some a := by
        rcases ha with ha | ha
        · split_ifs at ha
          · exact absurd (Option.some.inj ha).symm hap
          · exact .inl ha
        · split_ifs at ha
          · exact absurd (Option.some.inj ha).symm hap
          · exact .inr ha
      refine ⟨(hskipEnds a hold).1,
        fun ho => (hused a).mpr ⟨(hskipEnds a hold).2 (hown a ho), ?_⟩⟩
      rintro rfl
      rcases ha with ha | ha
      · split_ifs at ha with hnone
        · exact hap (Option.some.inj ha).symm
        · exact hnone (hskip.head a hq' ha).symm
      · split_ifs at ha with hnone
        · exact hap (Option.some.inj ha).symm
        · exact hnone (hskip.tail a hq' ha).symm
  refine ⟨⟨⟨?_, ?_, ?_, ?_, ?_, ?_, ?_, ?_⟩, fun a ha => ?_⟩, fun b hb => ?_⟩
  · rw [hpMem, hblocks]
    exact h.pMem
  · intro _
    have hpFree : s'.pFree = some q := congrArg Rest.pFree hrest
    rw [hpFree, hpMem, hcount, hq.1, Ptr.add, Option.map_some, Nat.zero_add, ← hslot]
  · rw [hcount, hcap]
    have := h.le
    omega
  · rw [hcap]
    exact h.limit
  · rw [hpMem, hcap]
    exact h.empty
  · rw [hblocks]
    exact fun a ha => hends a (.inl ha)
  · rw [hblocks]
    exact fun a ha => hends a (.inr ha)
  · rw [hlinks]
    split
    next hpq =>
      exact hskip.congr fun a => by rw [hused, hpq]
    next hpq =>
      refine (hskip.replace (fun hup => hup.2 rfl) (hother hpq) hskipHead hskipTail).congr fun a => ?_
      rw [hused]
      constructor
      · rintro ⟨ha, haq⟩
        by_cases hap : a = p
        · exact .inr hap
        · exact .inl ⟨⟨ha, hap⟩, haq⟩
      · rintro (⟨⟨ha, -⟩, haq⟩ | rfl)
        · exact ⟨ha, haq⟩
        · exact ⟨hp, hpq⟩
  · have hdata := congrFun (congrArg Rest.data hrest) a
    change s'.data a = if a = p then s.data q else s.data a at hdata
    rw [hdata]
    split_ifs
    · exact h.bodies q hq
    · exact h.bodies a ((hused a).mp ha).1
  · obtain ⟨c, hc, rfl⟩ := Option.map_eq_some_iff.mp hb
    obtain ⟨hcused, hcback⟩ := hchained.next p c hp hc
    have hcp : c ≠ p := fun heq => hne (heq ▸ hc)
    rw [moved]
    split_ifs with hcq
    · exact hp' fun hpq => hcp (hcq.trans hpq.symm)
    · exact (hused c).mpr ⟨hcused, hcq⟩

end Holds

end Pool

/-! ## Calls -/

namespace ParticleSystem

open Pool

variable {F D : Type} {P : D → Prop}

/-- **`addParticle`**: the new particle is the one that `initParticle` makes. -/
theorem addParticle_holds {s s' : ParticleSystem F D} (h : s.toPool.Holds P) {t : F}
    {spawn : Spawn F D} (hspawn : P (spawn.initial t).2) (hadd : addParticle t spawn s = some s') :
    s'.toPool.Holds P := by
  unfold addParticle at hadd
  by_cases hfull : s.toPool.isFull = true
  · rw [if_pos hfull] at hadd
    cases hadd
    exact h
  rw [if_neg hfull] at hadd
  have hroom : s.activeParticles < s.maxParticles := by
    refine lt_of_le_of_ne h.le fun heq => hfull ?_
    rw [isFull, heq, beq_self_eq_true]
  obtain ⟨p, hp, hal, hslot⟩ := h.free_slot hroom
  set f : Particle F D → Particle F D :=
    fun q => { q with life := (spawn.initial t).1, body := (spawn.initial t).2 } with hf
  set pool₀ : Pool F D := { s.toPool.modify p f with pFree := Ptr.add s.pFree 1 } with hpool₀
  have hlinks : pool₀.links = s.toPool.links := links_modify s.toPool p fun _ => ⟨rfl, rfl⟩
  have hal₀ : Pool.Allocated { s.toPool with pFree := Ptr.add s.pFree 1 } p := hal
  have hunused : ¬ s.toPool.Used p := fun hused => absurd hused.2 (by omega)
  obtain ⟨p', hp', hadd⟩ := Option.bind_eq_some_iff.mp hadd
  obtain rfl : p = p' := Option.some.inj (hp.symm.trans hp')
  obtain ⟨pool₁, hpool₁, hadd⟩ := Option.bind_eq_some_iff.mp hadd
  obtain rfl : pool₀ = pool₁ := Option.some.inj ((store_eq hal₀ f).symm.trans hpool₁)
  obtain ⟨pool, hinsert, hadd⟩ := Option.bind_eq_some_iff.mp hadd
  cases hadd
  have hchained : pool₀.links.Chained pool₀.Used := by
    rw [hlinks]
    exact h.links
  have hgrows := Chains.insert hchained (fun a ha => (h.head a ha).2) (fun a ha => (h.tail a ha).2)
    h.le hal hunused _ _ hinsert
  have hrest := hgrows.rest
  have hpMem : pool.pMem = s.pMem := congrArg Rest.pMem hrest
  have hcap : pool.maxParticles = s.maxParticles := congrArg Rest.maxParticles hrest
  have hblocks : pool.blocks = s.blocks := congrArg Rest.blocks hrest
  have hcount : u32Add pool.activeParticles 1 = s.activeParticles + 1 := by
    have hsame : pool.activeParticles = s.activeParticles := congrArg Rest.activeParticles hrest
    have := h.limit
    unfold maxParticlesLimit at this
    rw [hsame]
    exact u32Add_of_lt (by omega)
  have hused : ∀ a, Pool.Used { pool with activeParticles := u32Add pool.activeParticles 1 } a ↔
      s.toPool.Used a ∨ a = p := by
    intro a
    change pool.pMem = some ⟨a.block, 0⟩ ∧ a.slot < u32Add pool.activeParticles 1 ↔ _
    rw [hpMem, hcount]
    constructor
    · rintro ⟨hown, hlt⟩
      by_cases hless : a.slot < s.activeParticles
      · exact .inl ⟨hown, hless⟩
      · have hblock := (Addr.mk.inj (Option.some.inj (hown.symm.trans hal.1))).1
        have hsame : a.slot = p.slot := by omega
        refine .inr ?_
        cases a
        cases p
        cases hblock
        exact congrArg (Addr.mk _) hsame
    · rintro (⟨hown, hlt⟩ | rfl)
      · exact ⟨hown, by omega⟩
      · exact ⟨hal.1, by omega⟩
  have hend : ∀ a, a = p ∨ s.pHead = some a ∨ s.pTail = some a →
      a.block < s.blocks ∧ (Pool.Own { pool with activeParticles := u32Add pool.activeParticles 1 } a →
        Pool.Used { pool with activeParticles := u32Add pool.activeParticles 1 } a) := by
    rintro a (rfl | ha | ha)
    · exact ⟨(h.pMem _ hal.1).2, fun _ => (hused a).mpr (.inr rfl)⟩
    · exact ⟨(h.head a ha).1, fun hown => (hused a).mpr (.inl ((h.head a ha).2 (hpMem.symm.trans hown)))⟩
    · exact ⟨(h.tail a ha).1, fun hown => (hused a).mpr (.inl ((h.tail a ha).2 (hpMem.symm.trans hown)))⟩
  refine ⟨⟨?_, fun hne => ?_, ?_, ?_, ?_, fun a ha => ?_, fun a ha => ?_, ?_⟩, fun a ha => ?_⟩
  · change ∀ m, pool.pMem = some m → m.slot = 0 ∧ m.block < pool.blocks
    rw [hpMem, hblocks]
    exact h.pMem
  · change pool.pFree = Ptr.add pool.pMem (u32Add pool.activeParticles 1)
    have hpFree : pool.pFree = Ptr.add s.pFree 1 := congrArg Rest.pFree hrest
    rw [hpFree, hpMem, hcount, h.free (by rw [hal.1]; exact Option.some_ne_none _), hal.1]
    rfl
  · change u32Add pool.activeParticles 1 ≤ pool.maxParticles
    omega
  · change pool.maxParticles ≤ maxParticlesLimit
    rw [hcap]
    exact h.limit
  · change pool.pMem = none → pool.maxParticles = 0
    rw [hpMem, hcap]
    exact h.empty
  · change a.block < pool.blocks ∧ _
    rw [hblocks]
    exact hend a ((hgrows.head a ha).imp_right .inl)
  · change a.block < pool.blocks ∧ _
    rw [hblocks]
    exact hend a ((hgrows.tail a ha).imp_right .inr)
  · exact hgrows.links.congr hused
  · have hdata : pool.data = pool₀.data := congrArg Rest.data hrest
    change P (pool.data a).2
    rw [hdata]
    by_cases hap : a = p
    · subst hap
      have hnew : (pool₀.data a).2 = (spawn.initial t).2 := by simp [hpool₀, Pool.data, Pool.modify, hf]
      rw [hnew]
      exact hspawn
    · have hold : pool₀.data a = s.toPool.data a := by simp [hpool₀, Pool.data, Pool.modify, hap]
      rw [hold]
      exact h.bodies a (((hused a).mp ha).resolve_right hap)

theorem addParticles_holds [One F] {spawn : Nat → Spawn F D}
    (hspawn : ∀ n t, P ((spawn n).initial t).2) :
    ∀ {num : Nat} {s s' : ParticleSystem F D}, s.toPool.Holds P →
      addParticles spawn num s = some s' → s'.toPool.Holds P
  | 0, s, s', h, hrun => by
    cases hrun
    exact h
  | num + 1, s, s', h, hrun => by
    obtain ⟨s₁, hadd, hrun⟩ := Option.bind_eq_some_iff.mp hrun
    exact addParticles_holds hspawn (addParticle_holds h (hspawn num 1) hadd) hrun

section Floats

variable [Zero F] [One F] [Sub F] [Div F] [LT F] [LE F] [DecidableLT F] [DecidableLE F]

omit [Zero F] [LE F] [DecidableLE F] in
theorem emitDue_holds {rate total : F} {spawn : Nat → Spawn F D}
    (hspawn : ∀ n t, P ((spawn n).initial t).2) :
    ∀ {fuel n : Nat} {s s' : ParticleSystem F D}, s.toPool.Holds P →
      emitDue rate total spawn fuel n s = some s' → s'.toPool.Holds P
  | 0, _, _, _, _, hrun => by cases hrun
  | fuel + 1, n, s, s', h, hrun => by
    unfold emitDue at hrun
    split at hrun
    · obtain ⟨s₁, hadd, hrun⟩ := Option.bind_eq_some_iff.mp hrun
      have h₁ : s₁.toPool.Holds P := addParticle_holds h (hspawn n _) hadd
      exact emitDue_holds (s := { s₁ with emitCounter := s₁.emitCounter - rate }) hspawn h₁ hrun
    · cases hrun
      exact h

omit [One F] [Div F] [LT F] [DecidableLT F] in
/-- **The first loop of `update`**, from an active particle on, or from a pointer
that faults. -/
theorem age_holds {dt : F} {move : F → D → D} (hmove : ∀ life d, P d → P (move life d)) :
    ∀ {fuel : Nat} {p : Ptr} {s s' : Pool F D}, s.Holds P →
      (∀ a, p = some a → s.Own a → s.Used a) → age dt move fuel p s = some s' → s'.Holds P
  | fuel, none, s, s', h, _, hrun => by
    unfold age at hrun
    cases hrun
    exact h
  | 0, some p, s, s', _, _, hrun => by cases hrun
  | fuel + 1, some p, s, s', h, hp, hrun => by
    obtain ⟨s₁, hs₁, hrun⟩ := Option.bind_eq_some_iff.mp hrun
    obtain ⟨q, hq, hrun⟩ := Option.bind_eq_some_iff.mp hrun
    by_cases hal : s.Allocated p
    swap
    · rw [Pool.store, if_neg hal] at hs₁
      cases hs₁
    have hused : s.Used p := hp p rfl hal.1
    rw [store_eq hal] at hs₁
    cases hs₁
    have h₁ : (s.modify p fun q => { q with life := q.life - dt }).Holds P :=
      h.modify p (fun _ => ⟨rfl, rfl⟩) fun _ hbody => hbody
    split_ifs at hrun with hdead
    · obtain ⟨r, hrem, hrun⟩ := Option.bind_eq_some_iff.mp hrun
      obtain ⟨h₂, hnext⟩ := h₁.removeParticle hused hrem
      exact age_holds hmove h₂ (fun a ha _ => hnext a ha) hrun
    · obtain ⟨s₂, hs₂, hrun⟩ := Option.bind_eq_some_iff.mp hrun
      obtain ⟨q₂, hq₂, hrun⟩ := Option.bind_eq_some_iff.mp hrun
      have hal₁ : (s.modify p fun q => { q with life := q.life - dt }).Allocated p := hal
      rw [store_eq hal₁] at hs₂
      cases hs₂
      have h₂ := h₁.modify p (f := fun q => { q with body := move q.life q.body })
        (fun _ => ⟨rfl, rfl⟩) fun _ hbody => hmove _ _ hbody
      have hal₂ : ((s.modify p fun q => { q with life := q.life - dt }).modify p
        fun q => { q with body := move q.life q.body }).Allocated p := hal
      rw [load_eq hal₂] at hq₂
      cases hq₂
      exact age_holds hmove h₂ (fun a ha _ => (h₂.links.next p a hused ha).1) hrun

end Floats

theorem holds_of_empty {s : Pool F D}
    (hpMem : ∀ m, s.pMem = some m → m.slot = 0 ∧ m.block < s.blocks)
    (hfree : s.pMem ≠ none → s.pFree = s.pMem) (hcount : s.activeParticles = 0)
    (hlimit : s.maxParticles ≤ maxParticlesLimit) (hempty : s.pMem = none → s.maxParticles = 0)
    (hends : ∀ a, s.pHead = some a ∨ s.pTail = some a → a.block < s.blocks ∧ ¬ s.Own a) :
    s.Holds P :=
  ⟨.of_empty hpMem hfree hcount hlimit hempty hends, fun a ha => absurd ha.2 (by omega)⟩

theorem reset_holds [Zero F] {s : ParticleSystem F D} (h : s.toPool.Holds P) :
    (reset s).toPool.Holds P := by
  unfold reset
  split_ifs with hnone
  · exact h
  · exact holds_of_empty h.pMem (fun _ => rfl) rfl h.limit h.empty (by rintro a (ha | ha) <;> cases ha)

/-- **`setBufferSize`**, however it ends. The links of the old block are not those
of the new one. -/
theorem setBufferSize_holds [Zero F] {size : Nat} {alloc : Pool.Alloc} {s : ParticleSystem F D}
    (hends : ∀ a, s.pHead = some a ∨ s.pTail = some a → a.block < s.blocks)
    (hsize : s.toPool.Holds P ∨ (size ≠ 0 ∧ size ≤ maxParticlesLimit)) :
    (setBufferSize size alloc s).1.toPool.Holds P := by
  unfold setBufferSize
  split_ifs with hinvalid
  · rcases hsize with h | hvalid
    · exact h
    · omega
  have hlimit : size ≤ maxParticlesLimit := not_lt.mp fun hlt => hinvalid (.inr hlt)
  have hold : ∀ a : Addr, s.pHead = some a ∨ s.pTail = some a →
      a.block < s.blocks + 1 ∧ ¬ (some (⟨s.blocks, 0⟩ : Addr) = some ⟨a.block, 0⟩) := by
    intro a ha
    have hlt := hends a ha
    refine ⟨by omega, fun heq => ?_⟩
    have := (Addr.mk.inj (Option.some.inj heq)).1
    omega
  have hnew : ∀ m : Addr, some (⟨s.blocks, 0⟩ : Addr) = some m → m.slot = 0 ∧ m.block < s.blocks + 1 := by
    rintro m hm
    cases hm
    exact ⟨rfl, Nat.lt_succ_self _⟩
  cases alloc with
  | ok =>
    refine reset_holds (holds_of_empty hnew (fun _ => rfl) rfl hlimit nofun hold)
  | badAlloc =>
    exact holds_of_empty nofun (fun hne => absurd rfl hne) rfl (Nat.zero_le _) (fun _ => rfl)
      fun a ha => ⟨hends a ha, nofun⟩
  | particlesThenBadAlloc =>
    exact holds_of_empty nofun (fun hne => absurd rfl hne) rfl (Nat.zero_le _) (fun _ => rfl)
      fun a ha => ⟨(hold a ha).1, nofun⟩
  | bufferError message =>
    exact holds_of_empty hnew (fun _ => rfl) rfl hlimit nofun hold

theorem created_holds [Zero F] [One F] [Neg F] {s : ParticleSystem F D} (h : Created s) :
    s.toPool.Holds P := by
  have hvalid : ∀ {size : Nat} {alloc : Pool.Alloc} {s : ParticleSystem F D},
      (setBufferSize size alloc s).2 = none → size ≠ 0 ∧ size ≤ maxParticlesLimit := by
    intro size alloc s hnone
    unfold setBufferSize at hnone
    split_ifs at hnone with hinvalid
    exact ⟨fun hzero => hinvalid (.inl hzero), not_lt.mp fun hlt => hinvalid (.inr hlt)⟩
  rcases h with ⟨mem, texture2D, size, alloc, h⟩ | ⟨mem, alloc, p, h⟩
  · unfold construct at h
    split_ifs at h
    dsimp only at h
    split at h
    · next hnone =>
      cases h
      exact setBufferSize_holds (by rintro a (ha | ha) <;> cases ha) (.inr (hvalid hnone))
    · cases h
  · unfold clone at h
    dsimp only at h
    split at h
    · next hnone =>
      cases h
      exact setBufferSize_holds (by rintro a (ha | ha) <;> cases ha) (.inr (hvalid hnone))
    · cases h

section Runs

variable [Zero F] [One F] [Neg F] [Add F] [Sub F] [Div F] [LT F] [LE F] [BEq F]
variable [DecidableLT F] [DecidableLE F]

/-- What a call writes to particles meets `P`: those that it makes, and those that
`update` moves on. -/
def Op.Writes (P : D → Prop) : Op F D → Prop
  | .emit _ spawn => ∀ n t, P ((spawn n).initial t).2
  | .update _ _ move spawn =>
    (∀ life d, P d → P (move life d)) ∧ ∀ n t, P ((spawn n).initial t).2
  | _ => True

theorem update_holds {s s' : ParticleSystem F D} (h : s.toPool.Holds P) {fuel : Nat} {dt : F}
    {move : F → D → D} {spawn : Nat → Spawn F D} (hmove : ∀ life d, P d → P (move life d))
    (hspawn : ∀ n t, P ((spawn n).initial t).2)
    (hstep : update fuel dt move spawn s = some s') : s'.toPool.Holds P := by
  unfold update at hstep
  split_ifs at hstep with hnone
  · cases hstep
    exact h
  obtain ⟨pool, hage, hstep⟩ := Option.bind_eq_some_iff.mp hstep
  have hpool := age_holds hmove h (fun a ha => (h.head a ha).2) hage
  dsimp only at hstep
  split_ifs at hstep with hactive
  · obtain ⟨s₁, hdue, hstep⟩ := Option.bind_eq_some_iff.mp hstep
    have h₁ := emitDue_holds hspawn hpool hdue
    cases Option.some.inj hstep
    split_ifs
    · exact h₁
    · exact h₁
  · cases hstep
    exact hpool

/-- **One call**, whether it returns or throws. -/
theorem step_holds {s s' : ParticleSystem F D} (h : s.toPool.Holds P) {op : Op F D}
    (hwrites : op.Writes P) (hstep : step s op = some s') : s'.toPool.Holds P := by
  cases op with
  | setBufferSize size alloc =>
    cases hstep
    refine setBufferSize_holds ?_ (.inl h)
    rintro a (ha | ha)
    · exact (h.head a ha).1
    · exact (h.tail a ha).1
  | setInsertMode mode => cases hstep; exact h
  | setEmissionRate rate =>
    cases hstep
    unfold setEmissionRate
    split
    · exact h
    · exact h
  | setEmitterLifetime life => cases hstep; exact h
  | emit num spawn =>
    change emit num spawn s = some s' at hstep
    unfold emit at hstep
    split_ifs at hstep
    · cases hstep
      exact h
    · exact addParticles_holds hwrites h hstep
  | update fuel dt move spawn => exact update_holds h hwrites.1 hwrites.2 hstep
  | reset => cases hstep; exact reset_holds h
  | start | stop | pause => cases hstep; exact h

end Runs

end ParticleSystem

end Lhatove.Graphics
