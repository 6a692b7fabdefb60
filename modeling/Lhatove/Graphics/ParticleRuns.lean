import Lhatove.Graphics.ParticleList
import Lhatove.Lib.Transition

/-!
# The particle list over whole runs

- `removeParticle_keeps_rest`: what removing one particle leaves;
- `addParticle_spec`, `age_spec`, `emitDue_spec`: what the loops of `emit` and
  `update` do to the list;
- `SafeCall`: the calls that keep the list: all but `insertRandom` into an
  empty list, and a `setBufferSize` that loses its memory half way;
- `particles_listed`: the list is right in every state of every run of such
  calls.
-/

namespace Lhatove.Graphics

namespace Pool

variable {F D : Type}

/-- What is true of a pool whose list is right: from `pHead` to `pTail`, `l` is
linked both ways and ends in null, and its nodes are the used slots. -/
structure Listed (s : Pool F D) (l : List Addr) : Prop where
  head : s.pHead = l.head?
  tail : s.pTail = l.getLast?
  next : ∀ (i : Nat) (hi : i < l.length), (s.mem l[i]).next = l[i + 1]?
  prev : ∀ (i : Nat) (hi : i < l.length),
    (s.mem l[i]).prev = if i = 0 then none else l[i - 1]?
  inverse : ∀ a ∈ l, ∀ b ∈ l, (s.mem a).next = some b ↔ (s.mem b).prev = some a
  nodup : l.Nodup
  length : l.length = s.activeParticles
  slots : ∀ a, a ∈ l ↔ ∃ i < s.activeParticles, Ptr.add s.pMem i = some a
  free : s.pFree = Ptr.add s.pMem s.activeParticles
  le : s.activeParticles ≤ s.maxParticles
  head_null : s.pHead = none ↔ l = []
  tail_null : s.pTail = none ↔ l = []

variable {s : Pool F D} {l : List Addr}

theorem Shape.slots (h : s.Shape l) (a : Addr) :
    a ∈ l ↔ ∃ i < s.activeParticles, Ptr.add s.pMem i = some a := by
  obtain ⟨b, hb⟩ := h.pMem
  rw [h.mem_iff, hb]
  constructor
  · rintro ⟨hblock, hslot⟩
    cases a
    cases hblock
    exact ⟨_, hslot, by rw [Ptr.add, Option.map_some, Nat.zero_add]⟩
  · rintro ⟨i, hi, ha⟩
    rw [Ptr.add, Option.map_some, Nat.zero_add] at ha
    cases Option.some.inj ha
    exact ⟨rfl, hi⟩

theorem Shape.listed (h : s.Shape l) : s.Listed l where
  head := h.links.next_none
  tail := h.links.prev_none
  next i hi := h.links.next_getElem hi
  prev i hi := h.links.prev_getElem hi
  inverse a ha b hb := h.links.next_eq_some_iff ha hb
  nodup := h.links.nodup
  length := h.length
  slots := h.slots
  free := h.free
  le := h.le
  head_null := by
    rw [show s.pHead = l.head? from h.links.next_none]
    exact List.head?_eq_none_iff
  tail_null := by
    rw [show s.pTail = l.getLast? from h.links.prev_none]
    exact List.getLast?_eq_none_iff

theorem Shape.nil (hhead : s.pHead = none) (htail : s.pTail = none)
    (hpMem : ∃ b, s.pMem = some ⟨b, 0⟩) (hcount : s.activeParticles = 0)
    (hfree : s.pFree = s.pMem) (hlimit : s.maxParticles ≤ maxParticlesLimit) : s.Shape [] := by
  refine ⟨⟨List.nodup_nil, fun k hk => ?_, fun k hk => ?_⟩, hpMem, fun a => ?_, ?_, ?_, hlimit⟩
  · rw [Nat.le_zero.mp hk]
    exact hhead
  · rw [Nat.le_zero.mp hk]
    exact htail
  · rw [hcount]
    simp
  · obtain ⟨b, hb⟩ := hpMem
    rw [hfree, hcount, hb]
    rfl
  · rw [hcount]
    exact Nat.zero_le _

end Pool

namespace ParticleSystem

open Pool

variable {F D : Type}

/-! ## Adding -/

theorem addParticle_spec {s : ParticleSystem F D} {l : List Addr} (h : s.toPool.Shape l)
    (hrandom : s.insertMode = .random → l ≠ []) (t : F) (spawn : Spawn F D) :
    ∃ pool l', addParticle t spawn s = some { s with toPool := pool } ∧ pool.Shape l' ∧
      l.length ≤ l'.length := by
  unfold addParticle
  by_cases hfull : s.toPool.isFull = true
  · rw [if_pos hfull]
    exact ⟨s.toPool, l, rfl, h, le_rfl⟩
  · rw [if_neg hfull]
    have hroom : s.activeParticles < s.maxParticles := by
      refine lt_of_le_of_ne h.le fun heq => hfull ?_
      rw [isFull, heq, beq_self_eq_true]
    obtain ⟨p, hp, hal, -⟩ := h.free_slot hroom
    set f : Particle F D → Particle F D :=
      fun q => { q with life := (spawn.initial t).1, body := (spawn.initial t).2 } with hf
    set pool₀ : Pool F D := { s.toPool.modify p f with pFree := .add s.pFree 1 } with hpool₀
    have hlinks : pool₀.links = s.toPool.links := links_modify s.toPool p fun _ => ⟨rfl, rfl⟩
    have hrepr : pool₀.links.Repr l := hlinks ▸ h.links
    have hvalid : ∀ a ∈ l, pool₀.Allocated a := fun a ha => h.allocated ha
    -- whichever the mode, the particle enters the list at some position
    have hinsert : ∃ k ≤ l.length, ∃ s', pool₀.insert s.insertMode spawn.rand p = some s' ∧
        pool₀.Inserts s' p (Links.before l k) l[k]? := by
      cases hmode : s.insertMode with
      | top =>
        refine ⟨l.length, le_rfl, insertTop_spec hrepr (fun a ha => hvalid a ?_) hal⟩
        exact List.mem_of_getLast? (hrepr.prev_none.symm.trans ha)
      | bottom =>
        refine ⟨0, Nat.zero_le _, insertBottom_spec hrepr (fun a ha => hvalid a ?_) hal⟩
        exact List.mem_of_head? (hrepr.next_none.symm.trans ha)
      | random =>
        refine insertRandom_spec hrepr hvalid (fun i hi => ?_) (hrandom hmode) hal spawn.rand
        obtain ⟨b, hb⟩ := h.pMem
        exact ⟨⟨b, 0 + i⟩, (h.slots _).mpr ⟨i, hi, by rw [hb]; rfl⟩, by
          change Ptr.add s.pMem i = _
          rw [hb]
          rfl⟩
    obtain ⟨k, hk, s', hs', hins, hrest⟩ := hinsert
    refine ⟨{ s' with activeParticles := u32Add s'.activeParticles 1 }, l.insertIdx k p, ?_,
      h.grow hroom hp hk ?_ (congrArg Rest.pMem hrest) (congrArg Rest.maxParticles hrest)
        (congrArg Rest.pFree hrest)
        (congrArg (u32Add · 1) (congrArg Rest.activeParticles hrest)), ?_⟩
    · have hal₀ : Pool.Allocated { s.toPool with pFree := .add s.pFree 1 } p := hal
      exact Option.bind_eq_some_iff.mpr ⟨p, hp, Option.bind_eq_some_iff.mpr
        ⟨pool₀, store_eq hal₀ f, Option.bind_eq_some_iff.mpr ⟨s', hs', rfl⟩⟩⟩
    · rw [links_activeParticles, hins, hlinks]
    · rw [List.length_insertIdx_of_le_length hk]
      exact Nat.le_succ _

theorem addParticles_spec [One F] (spawn : Nat → Spawn F D) :
    ∀ (num : Nat) {s : ParticleSystem F D} {l : List Addr}, s.toPool.Shape l →
      (s.insertMode = .random → num ≠ 0 → l ≠ []) →
      ∃ pool l', addParticles spawn num s = some { s with toPool := pool } ∧ pool.Shape l'
  | 0, s, l, h, _ => ⟨s.toPool, l, rfl, h⟩
  | num + 1, s, l, h, hrandom => by
    obtain ⟨pool, l', hadd, h', hlen⟩ :=
      addParticle_spec h (fun hmode => hrandom hmode (Nat.succ_ne_zero _)) 1 (spawn num)
    obtain ⟨pool', l'', hrun, h''⟩ := addParticles_spec spawn num (s := { s with toPool := pool })
      h' fun hmode _ hnil => hrandom hmode (Nat.succ_ne_zero _) <| by
        rw [hnil] at hlen
        exact List.eq_nil_of_length_eq_zero (Nat.le_zero.mp hlen)
    exact ⟨pool', l'', Option.bind_eq_some_iff.mpr ⟨_, hadd, hrun⟩, h''⟩

section Floats

variable [Zero F] [One F] [Sub F] [Div F] [LT F] [LE F] [DecidableLT F] [DecidableLE F]

omit [Zero F] [LE F] [DecidableLE F] in
theorem emitDue_spec {rate total : F} {spawn : Nat → Spawn F D} :
    ∀ {fuel n : Nat} {s s' : ParticleSystem F D} {l : List Addr}, s.toPool.Shape l →
      (s.insertMode = .random → rate < s.emitCounter → l ≠ []) →
      emitDue rate total spawn fuel n s = some s' → ∃ l', s'.toPool.Shape l'
  | 0, _, _, _, _, _, _, hrun => by cases hrun
  | fuel + 1, n, s, s', l, h, hrandom, hrun => by
    unfold emitDue at hrun
    split at hrun
    next hdue =>
      obtain ⟨pool, l', hadd, h', hlen⟩ := addParticle_spec h (fun hmode => hrandom hmode hdue)
        (1 - (s.emitCounter - rate) / total) (spawn n)
      rw [hadd, Option.bind_eq_bind, Option.bind_some] at hrun
      refine emitDue_spec (s := { s with toPool := pool, emitCounter := s.emitCounter - rate }) h'
        (fun hmode _ hnil => hrandom hmode hdue ?_) hrun
      rw [hnil] at hlen
      exact List.eq_nil_of_length_eq_zero (Nat.le_zero.mp hlen)
    · cases hrun
      exact ⟨l, h⟩

/-! ## Ageing -/

omit [One F] [Div F] [LT F] [DecidableLT F] in
theorem age_end (dt : F) (move : F → D → D) (fuel : Nat) {k : Nat} {s : Pool F D}
    {l : List Addr} (h : s.Shape l) (hk : k ≤ l.length) (hge : l.length ≤ k) :
    ∃ s' l', age dt move fuel l[k]? s = some s' ∧ s'.Shape l' ∧
      ((0 < k ∨ ∃ i, k ≤ i ∧ ∃ a, l[i]? = some a ∧ ¬ (s.mem a).life - dt ≤ 0) → l' ≠ []) := by
  refine ⟨s, l, ?_, h, ?_⟩
  · rw [List.getElem?_eq_none hge]
    unfold age
    rfl
  · rintro (hpos | ⟨i, hki, a, ha, -⟩) rfl
    · exact absurd hk (Nat.not_le_of_lt hpos)
    · cases ha

omit [One F] [Div F] [LT F] [DecidableLT F] in
/-- **The first loop of `update`**, from position `k` of the list on: with fuel
for the rest of the list it ends, without a fault; the list stays right; and a
particle that the loop is past, or that will survive, keeps it from being empty. -/
theorem age_spec (dt : F) (move : F → D → D) :
    ∀ (fuel k : Nat) {s : Pool F D} {l : List Addr}, s.Shape l → k ≤ l.length →
      (age dt move fuel l[k]? s = none ∧ fuel < l.length - k) ∨
      ∃ s' l', age dt move fuel l[k]? s = some s' ∧ s'.Shape l' ∧
        ((0 < k ∨ ∃ i, k ≤ i ∧ ∃ a, l[i]? = some a ∧ ¬ (s.mem a).life - dt ≤ 0) → l' ≠ []) := by
  intro fuel
  induction fuel with
  | zero =>
    intro k s l h hk
    rcases Nat.lt_or_ge k l.length with hlt | hge
    · left
      rw [List.getElem?_eq_getElem hlt]
      exact ⟨rfl, Nat.sub_pos_of_lt hlt⟩
    · exact .inr (age_end dt move 0 h hk hge)
  | succ fuel ih =>
    intro k s l h hk
    rcases Nat.lt_or_ge k l.length with hlt | hge
    swap
    · exact .inr (age_end dt move (fuel + 1) h hk hge)
    obtain ⟨p, hp⟩ : ∃ p, l[k]? = some p := ⟨_, List.getElem?_eq_getElem hlt⟩
    have hal : s.Allocated p := h.allocated (List.mem_of_getElem? hp)
    set s₁ := s.modify p fun q => { q with life := q.life - dt } with hs₁
    have h₁ : s₁.Shape l := h.modify p fun _ => ⟨rfl, rfl⟩
    have hself : (s₁.mem p).life = (s.mem p).life - dt := by simp [hs₁, Pool.modify]
    have hother : ∀ a, a ≠ p → (s₁.mem a).life = (s.mem a).life := by
      intro a ha
      simp [hs₁, Pool.modify, ha]
    have h₂ : (s₁.modify p fun q => { q with body := move q.life q.body }).Shape l :=
      h₁.modify p fun _ => ⟨rfl, rfl⟩
    have hstep : age dt move (fuel + 1) l[k]? s = if (s₁.mem p).life ≤ 0 then
          (s₁.removeParticle p).bind fun r => age dt move fuel r.2 r.1
        else age dt move fuel l[k + 1]?
          (s₁.modify p fun q => { q with body := move q.life q.body }) := by
      have hal₁ : s₁.Allocated p := hal
      have hal₂ : (s₁.modify p fun q => { q with body := move q.life q.body }).Allocated p := hal
      rw [hp, age]
      simp only [store_eq hal, ← hs₁, load_eq hal₁, store_eq hal₁, load_eq hal₂, h₂.next_at hp,
        Option.bind_eq_bind, Option.bind_some]
    rw [hstep]
    by_cases hdead : (s₁.mem p).life ≤ 0
    · -- the particle dies: the loop goes on at the same position
      rw [if_pos hdead]
      obtain ⟨s₂, l₂, hrem, h₂, hdata⟩ := removeParticle_list h₁ hp
      have hlen := congrArg List.length hdata
      rw [List.length_map, List.length_map, List.length_eraseIdx_of_lt hlt] at hlen
      rw [hrem, Option.bind_some]
      rcases ih k h₂ (by omega) with ⟨hnone, hfuel⟩ | ⟨s', l', hrun, h', hne⟩
      · exact .inl ⟨hnone, by omega⟩
      · refine .inr ⟨s', l', hrun, h', fun hsurvives => hne ?_⟩
        rcases hsurvives with hpos | ⟨i, hki, a, ha, hlive⟩
        · exact .inl hpos
        · right
          have hik : i ≠ k := by
            rintro rfl
            rw [hp] at ha
            cases ha
            exact hlive (hself ▸ hdead)
          have hap : a ≠ p := by
            rintro rfl
            exact hik ((Links.getElem?_inj_of_nodup h.links.nodup
              (List.getElem?_eq_some_iff.mp ha).1.le hlt.le).mp (ha.trans hp.symm))
          have hmap := congrArg (fun r : List (F × D) => r[i - 1]?) hdata
          rw [List.getElem?_map, List.getElem?_map, List.getElem?_eraseIdx,
            if_neg (by omega), show i - 1 + 1 = i by omega, ha,
            Option.map_some] at hmap
          obtain ⟨a', ha', hlife⟩ := Option.map_eq_some_iff.mp hmap
          have hlife' : (s₂.mem a').life = (s.mem a).life :=
            (congrArg Prod.fst hlife).trans (hother a hap)
          exact ⟨i - 1, by omega, a', ha', by rwa [hlife']⟩
    · -- it lives: the loop moves on
      rw [if_neg hdead]
      rcases ih (k + 1) h₂ hlt with ⟨hnone, hfuel⟩ | ⟨s', l', hrun, h', hne⟩
      · exact .inl ⟨hnone, by omega⟩
      · exact .inr ⟨s', l', hrun, h', fun _ => hne (.inl (Nat.succ_pos k))⟩

end Floats

/-! ## Runs -/

theorem shape_reset [Zero F] {s : ParticleSystem F D} (hpMem : ∃ b, s.pMem = some ⟨b, 0⟩)
    (hlimit : s.maxParticles ≤ maxParticlesLimit) : (reset s).toPool.Shape [] := by
  obtain ⟨b, hb⟩ := hpMem
  unfold reset
  rw [if_neg (by rw [hb]; exact Option.some_ne_none _)]
  exact .nil rfl rfl ⟨b, hb⟩ rfl rfl hlimit

theorem shape_setBufferSize [Zero F] {size : Nat} {alloc : Pool.Alloc} {s : ParticleSystem F D}
    (h : (setBufferSize size alloc s).2 = none) : (setBufferSize size alloc s).1.toPool.Shape [] := by
  unfold setBufferSize at h ⊢
  by_cases hsize : size = 0 ∨ maxParticlesLimit < size
  · rw [if_pos hsize] at h
    cases h
  rw [if_neg hsize] at h ⊢
  cases alloc with
  | ok => exact shape_reset ⟨_, rfl⟩ (not_lt.mp fun hlt => hsize (.inr hlt))
  | badAlloc | particlesThenBadAlloc | bufferError message => cases h

theorem shape_created [Zero F] [One F] [Neg F] {s : ParticleSystem F D} (h : Created s) :
    s.toPool.Shape [] := by
  rcases h with ⟨mem, texture2D, size, alloc, h⟩ | ⟨mem, alloc, p, h⟩
  · unfold construct at h
    split at h
    · cases h
    split at h
    · cases h
    dsimp only at h
    split at h
    · next hnone =>
      cases h
      exact shape_setBufferSize hnone
    · cases h
  · unfold clone at h
    dsimp only at h
    split at h
    · next hnone =>
      cases h
      exact shape_setBufferSize hnone
    · cases h

section Runs

variable [Zero F] [One F] [Neg F] [Add F] [Sub F] [Div F] [LT F] [LE F] [BEq F]
variable [DecidableLT F] [DecidableLE F]

/-- The calls that keep the list. `insertRandom` must not be what fills an
empty list: with particles to emit there is one already, and in `update` one
that is still alive after `dt`. `setBufferSize` must get its memory, except
that an empty system survives losing the vertex buffer alone. -/
def SafeCall (s : ParticleSystem F D) : Op F D → Prop
  | .setBufferSize size alloc =>
    (size = 0 ∨ maxParticlesLimit < size) ∨ alloc = .ok ∨
      ((∃ message, alloc = .bufferError message) ∧ s.activeParticles = 0)
  | .emit num _ =>
    s.insertMode = .random → s.active = true → num ≠ 0 → s.activeParticles ≠ 0
  | .update _ dt _ _ =>
    s.insertMode = .random → s.active = true → (dt == 0) = false →
      1 / s.emissionRate < s.emitCounter + dt →
      ∃ i < s.activeParticles, ∃ a, Ptr.add s.pMem i = some a ∧ ¬ (s.mem a).life - dt ≤ 0
  | _ => True

/-- Particle systems under all calls. -/
def calls : System (ParticleSystem F D) (Op F D) := System.ofStep Created step

theorem shape_update {fuel : Nat} {dt : F} {move : F → D → D} {spawn : Nat → Spawn F D}
    {s s' : ParticleSystem F D} {l : List Addr} (h : s.toPool.Shape l)
    (hsafe : SafeCall s (.update fuel dt move spawn))
    (hstep : update fuel dt move spawn s = some s') : ∃ l', s'.toPool.Shape l' := by
  unfold update at hstep
  split at hstep
  · cases hstep
    exact ⟨l, h⟩
  rename_i hskip
  obtain ⟨pool, hage, hstep⟩ := Option.bind_eq_some_iff.mp hstep
  have hhead : s.pHead = l[0]? := h.links.next_none.trans List.head?_eq_getElem?
  rw [hhead] at hage
  rcases age_spec dt move fuel 0 h (Nat.zero_le _) with ⟨hnone, -⟩ | ⟨pool', l', hrun, h', hne⟩
  · rw [hage] at hnone
    cases hnone
  obtain rfl : pool = pool' := Option.some.inj (hage.symm.trans hrun)
  by_cases hactive : s.active = true
  · rw [if_pos hactive] at hstep
    obtain ⟨s₁, hdue, hstep⟩ := Option.bind_eq_some_iff.mp hstep
    obtain ⟨l₁, h₁⟩ := emitDue_spec
      h' (fun hmode hlt => by
        have hdt : (dt == 0) = false := by
          cases hdt : dt == 0 with
          | false => rfl
          | true => exact absurd (by rw [hdt, Bool.or_true]) hskip
        obtain ⟨i, hi, a, ha, hlive⟩ := hsafe hmode hactive hdt hlt
        obtain ⟨j, hj⟩ := List.mem_iff_getElem?.mp ((h.slots a).mpr ⟨i, hi, ha⟩)
        exact hne (.inr ⟨j, Nat.zero_le _, a, hj, hlive⟩)) hdue
    cases Option.some.inj hstep
    split
    all_goals exact ⟨l₁, h₁⟩
  · rw [if_neg hactive] at hstep
    cases hstep
    exact ⟨l', h'⟩

/-- **What one call does**: a call that keeps the list, keeps it. -/
theorem shape_step {s s' : ParticleSystem F D} {op : Op F D} (h : ∃ l, s.toPool.Shape l)
    (hsafe : SafeCall s op) (hstep : step s op = some s') : ∃ l, s'.toPool.Shape l := by
  obtain ⟨l, h⟩ := h
  cases op with
  | setBufferSize size alloc =>
    cases hstep
    rcases hsafe with hsize | rfl | ⟨⟨message, rfl⟩, hcount⟩
    · unfold setBufferSize
      rw [if_pos hsize]
      exact ⟨l, h⟩
    · by_cases hsize : size = 0 ∨ maxParticlesLimit < size
      · unfold setBufferSize
        rw [if_pos hsize]
        exact ⟨l, h⟩
      · refine ⟨[], shape_setBufferSize ?_⟩
        unfold setBufferSize
        rw [if_neg hsize]
        rfl
    · unfold setBufferSize
      split
      · exact ⟨l, h⟩
      · next hsize =>
        obtain rfl : l = [] := List.eq_nil_of_length_eq_zero (h.length.trans hcount)
        exact ⟨[], .nil h.links.next_none h.links.prev_none ⟨_, rfl⟩ rfl rfl
          (not_lt.mp fun hlt => hsize (.inr hlt))⟩
  | setInsertMode mode => cases hstep; exact ⟨l, h⟩
  | setEmissionRate rate =>
    cases hstep
    unfold setEmissionRate
    split
    all_goals exact ⟨l, h⟩
  | setEmitterLifetime life => cases hstep; exact ⟨l, h⟩
  | emit num spawn =>
    change emit num spawn s = some s' at hstep
    unfold emit at hstep
    split at hstep
    · cases hstep
      exact ⟨l, h⟩
    · next hactive =>
      obtain ⟨pool, l', hrun, h'⟩ := addParticles_spec spawn
        (min num (u32Sub s.maxParticles s.activeParticles)) h fun hmode hnum hnil => by
          refine hsafe hmode (by simpa using hactive) (fun hzero => hnum ?_) ?_
          · rw [hzero, Nat.zero_min]
          · rw [← h.length, hnil, List.length_nil]
      rw [hrun] at hstep
      cases hstep
      exact ⟨l', h'⟩
  | update fuel dt move spawn => exact shape_update h hsafe hstep
  | reset => cases hstep; exact ⟨[], shape_reset h.pMem h.limit⟩
  | start | stop | pause => cases hstep; exact ⟨l, h⟩

/-- **The particle list.** In every state of every run whose calls are safe,
the particles form one list, linked both ways, of exactly the used slots. -/
theorem particles_listed {s : ParticleSystem F D} (h : (calls.restrict SafeCall).Reachable s) :
    ∃ l, s.toPool.Listed l := by
  have hshape : ∃ l, s.toPool.Shape l := h.invariant_restrict
    (fun s hs => ⟨[], shape_created hs⟩) fun s op s' hs hsafe hstep => shape_step hs hsafe hstep
  obtain ⟨l, hl⟩ := hshape
  exact ⟨l, hl.listed⟩

end Runs

/-! ## Two runs -/

/-- A system for two particles, over the rationals. -/
def twoParticles : Except String (ParticleSystem ℚ Unit) :=
  construct (fun _ => ⟨none, none, 0, ()⟩) true 2 .ok

/-- With the default insert mode one emitted particle is the whole list. -/
theorem particles_listed_emit : ∃ s : ParticleSystem ℚ Unit,
    s.activeParticles = 1 ∧ (calls.restrict SafeCall).Reachable s ∧ ∃ l, s.toPool.Listed l := by
  obtain ⟨s₀, hs₀⟩ : ∃ s₀, twoParticles = .ok s₀ := ⟨_, rfl⟩
  obtain ⟨s, hstep, hcount⟩ : ∃ s, step s₀ (.emit 1 fun _ => ⟨fun _ => (1, ()), 0⟩) = some s ∧
      s.activeParticles = 1 := by
    cases hs₀
    exact ⟨_, rfl, rfl⟩
  have hmode : s₀.insertMode = .top := by
    cases hs₀
    rfl
  have hsafe : SafeCall s₀ (.emit 1 fun _ => ⟨fun _ => (1, ()), 0⟩) := by
    intro hrandom
    rw [hmode] at hrandom
    cases hrandom
  have hreach : (calls.restrict SafeCall).Reachable s :=
    .step (.init (.inl ⟨_, _, _, _, hs₀⟩)) ⟨hsafe, hstep⟩
  exact ⟨s, hcount, hreach, particles_listed hreach⟩

/-- Random insertion, and one particle emitted. -/
def randomEmit : List (Op ℚ Unit) :=
  [.setInsertMode .random, .emit 1 fun _ => ⟨fun _ => (1, ()), 0⟩]

/-- The first particle of `insertRandom` becomes the head, but not the tail. -/
theorem randomEmit_tail_null : ∃ s : ParticleSystem ℚ Unit,
    calls.Reachable s ∧ ¬ ∃ l, s.toPool.Listed l := by
  obtain ⟨s₀, hs₀⟩ : ∃ s₀, twoParticles = .ok s₀ := ⟨_, rfl⟩
  obtain ⟨s, hrun, hhead, htail⟩ : ∃ s, (System.run step s₀ randomEmit) = some s ∧
      s.pHead = some ⟨0, 0⟩ ∧ s.pTail = none := by
    cases hs₀
    exact ⟨_, rfl, rfl, rfl⟩
  refine ⟨s, .of_run (.init (.inl ⟨_, _, _, _, hs₀⟩)) hrun, ?_⟩
  rintro ⟨l, hl⟩
  have hnil := hl.tail_null.mp htail
  have hnone := hl.head_null.mpr hnil
  rw [hhead] at hnone
  cases hnone

end ParticleSystem

end Lhatove.Graphics
