import Lhatove.Vulkan.BindingMapper

/-!
# Interfaces that do not collide

What the mapping of `compileShaders` leaves in the tables and in the words of the stages.

- `exists_free`, `getFreeBinding_result`: the search for a position ends;
- `Inv`: the entries of a table are apart, and each word is the decoration or the position
  of its name;
- `place_result`, `runActions_result`: what one resource, and all of them, do to it;
- `mapInterface_sound`: names agree and nothing overlaps, if what is claimed is enough.
-/

namespace Lhatove.Vulkan

open Function List LoopM

/-! ## The search -/

theorem sizeOfInt_of_pos {n : Int} (hpos : 0 < n) (hlt : n < 2 ^ 32) : sizeOfInt n = n.toNat := by
  rw [sizeOfInt, Int.emod_eq_of_lt (by omega) (by omega)]

/-- Positions of a range of `size` locations that meets the range. -/
def blocked (size : Nat) (range : Range) : Finset Nat :=
  Finset.Ico (range.first + 1 - size) (range.last + 1)

/-- Positions that some entry of the table takes. -/
def blockedBy (size : Nat) : BindingMapper → Finset Nat
  | [] => ∅
  | entry :: m => blocked size entry.2 ∪ blockedBy size m

/-- How many locations the entries of a table have. -/
def claimed (m : BindingMapper) : Nat := (m.map fun entry => entry.2.last + 1 - entry.2.first).sum

theorem card_blockedBy_le {size : Nat} (m : BindingMapper) :
    (blockedBy size m).card ≤ claimed m + m.length * size := by
  induction m with
  | nil => exact Nat.zero_le _
  | cons entry m ih =>
    have hone : (blocked size entry.2).card ≤ entry.2.last + 1 - entry.2.first + size := by
      rw [blocked, Nat.card_Ico]
      omega
    have hunion := Finset.card_union_le (blocked size entry.2) (blockedBy size m)
    have hclaimed : claimed (entry :: m) =
        entry.2.last + 1 - entry.2.first + claimed m := sum_cons
    have hlength : (entry :: m).length * size = m.length * size + size := by
      rw [length_cons, Nat.add_mul, Nat.one_mul]
    rw [blockedBy, hclaimed, hlength]
    omega

variable {i : Nat} {count : Int}

theorem isFreeBinding_of_not_mem {m : BindingMapper} (hpos : 0 < count) (hlt : count < 2 ^ 32)
    (hi : i < 2 ^ 32) (h : i ∉ blockedBy count.toNat m) :
    m.isFreeBinding i count = true := by
  rw [BindingMapper.isFreeBinding, all_eq_true]
  rw [sizeOfInt_of_pos hpos hlt]
  intro entry hentry
  have hout : i ∉ blocked count.toNat entry.2 := by
    induction m with
    | nil => cases hentry
    | cons first m ih =>
      rw [blockedBy, Finset.mem_union, not_or] at h
      rcases mem_cons.mp hentry with rfl | hrest
      · exact h.1
      · exact ih h.2 hrest
  have hlast := @Range.ofSize_last i count.toNat (by omega) (by omega)
  rw [Bool.not_eq_true', Range.not_intersects_iff]
  rw [blocked, Finset.mem_Ico] at hout
  show (Range.ofSize i count.toNat).last < entry.2.first ∨ entry.2.last < i
  omega

/-- There is a free position, if the entries are few and small. -/
theorem exists_free {m : BindingMapper} (hpos : 0 < count) (hlt : count < 2 ^ 32)
    (hsmall : claimed m + m.length * count.toNat < 2 ^ 32) :
    ∃ i < 2 ^ 32, m.isFreeBinding i count = true := by
  have hcard : (blockedBy count.toNat m).card < (Finset.range (2 ^ 32)).card := by
    rw [Finset.card_range]
    exact (card_blockedBy_le m).trans_lt hsmall
  obtain ⟨i, hi, hout⟩ := Finset.exists_mem_notMem_of_card_lt_card hcard
  rw [Finset.mem_range] at hi
  exact ⟨i, hi, isFreeBinding_of_not_mem hpos hlt hi hout⟩

/-- **The search ends** at a free position, if there is one. -/
theorem getFreeBinding_result {m : BindingMapper} (s : Interface) (hi : i < 2 ^ 32)
    (hfree : m.isFreeBinding i count = true) :
    ∃ j < 2 ^ 32, m.isFreeBinding j count = true ∧
      (getFreeBinding m count).result s = some (.ok j, s) := by
  have hturn : ∀ (k : Nat) (t : Interface), k ≤ i ∧ t = s → ∃ r u,
      (if m.isFreeBinding k count then return .inr k else return .inl ((k + 1) % 2 ^ 32) :
        Mapping (Nat ⊕ Nat)).result t = some (r, u) ∧
      LoopM.Leads (fun k' u => (k' ≤ i ∧ u = s) ∧ i - k' < i - k)
        (fun r u => ∃ j < 2 ^ 32, m.isFreeBinding j count = true ∧ r = .ok j ∧ u = s) r u := by
    rintro k t ⟨hle, rfl⟩
    by_cases hkfree : m.isFreeBinding k count = true
    · refine ⟨.ok (.inr k), t, ?_, k, by omega, hkfree, rfl, rfl⟩
      rw [if_pos hkfree]
      exact result_pure _ t
    · have hne : k ≠ i := by
        rintro rfl
        exact hkfree hfree
      have hmod : (k + 1) % 2 ^ 32 = k + 1 := Nat.mod_eq_of_lt (by omega)
      refine ⟨.ok (.inl (k + 1)), t, ?_, ⟨by omega, rfl⟩, by omega⟩
      rw [if_neg hkfree, hmod]
      exact result_pure _ t
  obtain ⟨r, t, hr, j, hj, hjfree, rfl, rfl⟩ :=
    repeatM_ends (fun k _ => i - k) hturn ⟨Nat.zero_le i, rfl⟩
  exact ⟨j, hj, hjfree, hr⟩

/-! ## What the mapping keeps -/

/-- A resource that is mapped, in a stage. -/
structure Call where
  stage : Nat
  mapper : Mapper
  name : String
  count : Int
  r : Resource

def Call.action (c : Call) : Nat × Action := (c.stage, .place c.mapper c.name c.count c.r)

/-- How many locations an action claims. -/
def Action.size : Action → Nat
  | .place _ _ count _ => count.toNat
  | .refuse _ => 0

/-- How many locations are claimed in all. -/
def total (acts : List (Nat × Action)) : Nat := (acts.map fun a => a.2.size).sum

/-- The words of the decorations, as SPIRV-Cross finds them: each has its decoration's value
in it, and resources of two names, or of two mappers, have different ones. -/
structure Decorated (acts : List (Nat × Action)) (spirv : Nat → List Nat) : Prop where
  decoration : ∀ c : Call, c.action ∈ acts → c.r.decoration < 2 ^ 32
  word : ∀ c : Call, c.action ∈ acts → ∀ o, c.r.offset = some o →
    (spirv c.stage)[o]? = some c.r.decoration
  apart : ∀ c c' : Call, c.action ∈ acts → c'.action ∈ acts → c.stage = c'.stage →
    ∀ o, c.r.offset = some o → c'.r.offset = some o → c.mapper = c'.mapper ∧ c.name = c'.name

/-- Two entries of a table: of different names, and with no position in common. -/
def Apart (e e' : String × Range) : Prop :=
  e.1 ≠ e'.1 ∧ (e'.2.last < e.2.first ∨ e.2.last < e'.2.first)

instance : Std.Symm Apart := ⟨fun _ _ h => ⟨h.1.symm, h.2.symm⟩⟩

/-- What the tables and the words are, after at most `n` entries of `m` locations. -/
structure Inv (acts : List (Nat × Action)) (n m : Nat) (s : Interface) : Prop where
  entries : ∀ k name range, (name, range) ∈ s.table k → range.first < 2 ^ 32 ∧
    ∃ c : Call, c.action ∈ acts ∧ c.mapper = k ∧ c.name = name ∧
      range.last + 1 = range.first + c.count.toNat
  apart : ∀ k, (s.table k).Pairwise Apart
  few : ∀ k, (s.table k).length ≤ n
  small : ∀ k, claimed (s.table k) ≤ m
  words : ∀ c : Call, c.action ∈ acts → ∀ o, c.r.offset = some o →
    ∃ w, (s.spirv c.stage)[o]? = some w ∧
      (w = c.r.decoration ∨ ∃ range, (c.name, range) ∈ s.table c.mapper ∧ w = range.first)

/-- The resource has the position of its name: in its stage's words, and as the answer. -/
def Settled (c : Call) (s : Interface) : Prop :=
  ∃ range, (c.name, range) ∈ s.table c.mapper ∧
    (∀ o, c.r.offset = some o → (s.spirv c.stage)[o]? = some range.first) ∧
    (c.r.offset = none → c.r.decoration = range.first) ∧
    s.answer c.mapper c.name = some range.first

variable {acts : List (Nat × Action)} {n m : Nat} {s : Interface}

variable {k : Mapper} {name : String} {range : Range}

theorem Inv.unique (h : Inv acts n m s) {range' : Range} (hrange : (name, range) ∈ s.table k)
    (hrange' : (name, range') ∈ s.table k) :
    range = range' := by
  by_contra hne
  have hapart := (h.apart k).forall hrange hrange' fun he => hne (congrArg Prod.snd he)
  exact hapart.1 rfl

theorem lookup_mem {t : BindingMapper} (h : t.lookup name = some range) : (name, range) ∈ t := by
  obtain ⟨l₁, l₂, rfl, -⟩ := lookup_eq_some_iff.mp h
  exact mem_append_right _ (mem_cons_self ..)

theorem lookup_not_mem {t : BindingMapper} (h : t.lookup name = none)
    (range : Range) : (name, range) ∉ t := by
  intro hmem
  have := lookup_eq_none_iff.mp h _ hmem
  simp at this

variable {spirv : Nat → List Nat} {c : Call} {o : Nat}

theorem Inv.write (h : Inv acts n m s) (hdec : Decorated acts spirv) (hc : c.action ∈ acts)
    (hrange : (c.name, range) ∈ s.table c.mapper) (ho : c.r.offset = some o) :
    Inv acts n m (s.write c.stage o range.first) := by
  refine ⟨h.entries, h.apart, h.few, h.small, ?_⟩
  intro c' hc' o' ho'
  obtain ⟨w, hw, hor⟩ := h.words c' hc' o' ho'
  show ∃ w, (update s.spirv c.stage ((s.spirv c.stage).set o range.first) c'.stage)[o']? =
    some w ∧ _
  by_cases hstage : c'.stage = c.stage
  · rw [hstage, update_self]
    rw [hstage] at hw
    by_cases hoo : o = o'
    · subst hoo
      obtain ⟨hmapper, hname⟩ := hdec.apart c' c hc' hc hstage o ho' ho
      refine ⟨range.first, ?_, .inr ⟨range, ?_, rfl⟩⟩
      · exact List.getElem?_set_self (List.getElem?_eq_some_iff.mp hw).1
      · rw [hname, hmapper]
        exact hrange
    · rw [List.getElem?_set_ne hoo]
      exact ⟨w, hw, hor⟩
  · rw [update_of_ne hstage]
    exact ⟨w, hw, hor⟩

theorem enter_table (s : Interface) (k : Mapper) (name : String) (range : Range) (k' : Mapper) :
    (s.enter k name range).table k' =
      if k' = k then (name, range) :: s.table k else s.table k' := by
  show update s.table k _ k' = _
  by_cases hk : k' = k
  · rw [if_pos hk, hk, update_self]
  · rw [if_neg hk, update_of_ne hk]

theorem mem_enter (s : Interface) (k : Mapper) (name : String) (range : Range) {k' : Mapper}
    {e : String × Range} (he : e ∈ s.table k') : e ∈ (s.enter k name range).table k' := by
  rw [enter_table]
  split_ifs with hk
  · rw [hk] at he
    exact mem_cons_of_mem _ he
  · exact he

theorem Inv.enter (h : Inv acts n m s) (hc : c.action ∈ acts)
    (hnew : (s.table c.mapper).lookup c.name = none) (hpos : 0 < c.count) (hlt : c.count < 2 ^ 32)
    {p : Nat} (hp : p < 2 ^ 32) (hfree : (s.table c.mapper).isFreeBinding p c.count = true) :
    Inv acts (n + 1) (m + c.count.toNat)
      (s.enter c.mapper c.name (.ofSize p (sizeOfInt c.count))) := by
  rw [sizeOfInt_of_pos hpos hlt]
  have hlast := @Range.ofSize_last p c.count.toNat (by omega) (by omega)
  have hfirst : (Range.ofSize p c.count.toNat).first = p := rfl
  have htable := enter_table s c.mapper c.name (.ofSize p c.count.toNat)
  constructor
  · intro k name range hmem
    rw [htable] at hmem
    split_ifs at hmem with hk
    · rcases mem_cons.mp hmem with heq | hold
      · cases heq
        exact ⟨hp, c, hc, hk.symm, rfl, hlast⟩
      · rw [hk]
        exact h.entries _ _ _ hold
    · exact h.entries _ _ _ hmem
  · intro k
    rw [htable]
    split_ifs with hk
    · refine pairwise_cons.mpr ⟨?_, h.apart c.mapper⟩
      intro e he
      constructor
      · intro heq
        have hnot := lookup_not_mem hnew e.2
        rw [show (c.name, e.2) = e from Prod.ext heq rfl] at hnot
        exact hnot he
      · rw [BindingMapper.isFreeBinding, sizeOfInt_of_pos hpos hlt, all_eq_true] at hfree
        have hnone := hfree e he
        rw [Bool.not_eq_true', Range.not_intersects_iff] at hnone
        exact hnone.symm
    · exact h.apart k
  · intro k
    rw [htable]
    split_ifs
    · exact Nat.succ_le_succ (h.few c.mapper)
    · exact (h.few k).trans (Nat.le_succ n)
  · intro k
    rw [htable]
    split_ifs
    · have hsmall := h.small c.mapper
      have hsize : (Range.ofSize p c.count.toNat).last + 1 - p = c.count.toNat := by omega
      rw [claimed, map_cons, sum_cons, hfirst, hsize]
      rw [claimed] at hsmall
      omega
    · exact (h.small k).trans (Nat.le_add_right ..)
  · intro c' hc' o ho
    obtain ⟨w, hw, hor⟩ := h.words c' hc' o ho
    refine ⟨w, hw, ?_⟩
    rcases hor with hdec | ⟨range, hrange, hfirst⟩
    · exact .inl hdec
    · exact .inr ⟨range, mem_enter s _ _ _ hrange, hfirst⟩

theorem Inv.answered (h : Inv acts n m s) (k : Mapper) (name : String) (position : Nat) :
    Inv acts n m (s.answered k name position) :=
  ⟨h.entries, h.apart, h.few, h.small, h.words⟩

theorem Inv.mono (h : Inv acts n m s) {n' m' : Nat} (hn : n ≤ n') (hm : m ≤ m') :
    Inv acts n' m' s :=
  ⟨h.entries, h.apart, fun k => (h.few k).trans hn, fun k => (h.small k).trans hm, h.words⟩

/-- Every resource claims what those of its name occupy, if its mapper has another name, and
all claims together are so few that there is always a free position. -/
structure ClaimsEnough (acts : List (Nat × Action)) : Prop where
  pos : ∀ c : Call, c.action ∈ acts → 0 < c.count
  occupied : ∀ c c' : Call, c.action ∈ acts → c'.action ∈ acts → c.mapper = c'.mapper →
    c.name = c'.name → (∃ d : Call, d.action ∈ acts ∧ d.mapper = c.mapper ∧ d.name ≠ c.name) →
    c'.r.occupied ≤ c.count.toNat
  few : (acts.length + 1) * total acts < 2 ^ 32

theorem size_le_total (hc : c.action ∈ acts) : c.count.toNat ≤ total acts :=
  single_le_sum (fun _ _ => Nat.zero_le _) _
    (mem_map_of_mem hc)

theorem Settled.write (h : Inv acts n m s) (hdec : Decorated acts spirv) {c' : Call}
    (hc : c.action ∈ acts) (hc' : c'.action ∈ acts) (hrange : (c.name, range) ∈ s.table c.mapper)
    (ho : c.r.offset = some o)
    (hs : Settled c' s) : Settled c' (s.write c.stage o range.first) := by
  obtain ⟨range', hrange', hword, hnone, hanswer⟩ := hs
  refine ⟨range', hrange', ?_, hnone, hanswer⟩
  intro o' ho'
  have hold := hword o' ho'
  show (update s.spirv c.stage ((s.spirv c.stage).set o range.first) c'.stage)[o']? = _
  by_cases hstage : c'.stage = c.stage
  · rw [hstage, update_self]
    rw [hstage] at hold
    by_cases hoo : o = o'
    · subst hoo
      obtain ⟨hmapper, hname⟩ := hdec.apart c' c hc' hc hstage o ho' ho
      rw [hname, hmapper] at hrange'
      rw [h.unique hrange' hrange]
      exact List.getElem?_set_self (List.getElem?_eq_some_iff.mp hold).1
    · rw [List.getElem?_set_ne hoo]
      exact hold
  · rw [update_of_ne hstage]
    exact hold

theorem Settled.enter (h : Settled c s) (k : Mapper) (name : String) (range : Range) :
    Settled c (s.enter k name range) := by
  obtain ⟨range', hrange', hword, hnone, hanswer⟩ := h
  exact ⟨range', mem_enter s k name range hrange', hword, hnone, hanswer⟩

/-- The resource has the position in its stage's words. -/
def Written (c : Call) (position : Nat) (s : Interface) : Prop :=
  ∃ range, (c.name, range) ∈ s.table c.mapper ∧ position = range.first ∧
    (∀ o, c.r.offset = some o → (s.spirv c.stage)[o]? = some range.first) ∧
    (c.r.offset = none → c.r.decoration = range.first)

theorem writeBinding_result (stage : Nat) (name : String) (r : Resource) (binding : Nat)
    (s : Interface) :
    (writeBinding stage name r binding).result s =
      match r.offset with
      | none =>
        some (.error ("could not get binary offset for uniform " ++ name ++ " binding"), s)
      | some o => some (.ok (), s.write stage o binding) := by
  unfold writeBinding
  cases r.offset with
  | none => exact result_throw _ s
  | some o => exact result_modify _ s

theorem write_self {position w : Nat} (hw : (s.spirv c.stage)[o]? = some w) :
    ((s.write c.stage o position).spirv c.stage)[o]? = some position := by
  show (update s.spirv c.stage ((s.spirv c.stage).set o position) c.stage)[o]? = _
  rw [update_self]
  exact List.getElem?_set_self (List.getElem?_eq_some_iff.mp hw).1

/-- **What the mapper does** with a resource: it ends, and if it answers, the invariant
holds again, the position is written, and no other resource has lost its own. -/
theorem place_result (h : Inv acts n m s) (hdec : Decorated acts spirv)
    (hclaims : ClaimsEnough acts) (hn : n ≤ acts.length) (hm : m ≤ total acts)
    (hc : c.action ∈ acts) :
    ∃ r t, (place c.mapper c.stage c.name c.count c.r).result s = some (r, t) ∧
      ∀ position, r = .ok position →
        Inv acts (n + 1) (m + c.count.toNat) t ∧ Written c position t ∧
          ∀ c' : Call, c'.action ∈ acts → Settled c' s → Settled c' t := by
  have hpos := hclaims.pos c hc
  have hcount : c.count.toNat ≤ total acts := size_le_total hc
  have htotal : total acts < 2 ^ 32 := by
    have := hclaims.few
    nlinarith
  have hlt : c.count < 2 ^ 32 := by omega
  unfold place
  rw [result_bind_ok (result_get s)]
  cases hlookup : (s.table c.mapper).lookup c.name with
  | some range =>
    -- the name has a position
    have hrange := lookup_mem hlookup
    have hfirst : range.getOffset % 2 ^ 32 = range.first :=
      Nat.mod_eq_of_lt (h.entries _ _ _ hrange).1
    dsimp only
    rw [hfirst]
    have hwrite := writeBinding_result c.stage c.name c.r range.first s
    cases ho : c.r.offset with
    | none =>
      rw [ho] at hwrite
      rw [result_bind_error hwrite]
      refine ⟨_, _, rfl, ?_⟩
      intro position hposition
      cases hposition
    | some o =>
      rw [ho] at hwrite
      rw [result_bind_ok hwrite, result_pure]
      refine ⟨_, _, rfl, ?_⟩
      intro position hposition
      cases hposition
      obtain ⟨w, hw, -⟩ := h.words c hc o ho
      refine ⟨(h.write hdec hc hrange ho).mono (Nat.le_succ n) (Nat.le_add_right ..),
        ⟨range, hrange, rfl, ?_, ?_⟩, ?_⟩
      · intro o' ho'
        rw [ho] at ho'
        cases ho'
        exact write_self hw
      · intro hnone
        rw [ho] at hnone
        cases hnone
      · intro c' hc' hs
        exact hs.write h hdec hc hc' hrange ho
  | none =>
    by_cases hfree : (s.table c.mapper).isFreeBinding c.r.decoration c.count = true
    · -- the suggested position is free
      have hdecoration := hdec.decoration c hc
      rw [if_pos hfree, result_bind_ok (result_modify _ s), result_pure]
      refine ⟨_, _, rfl, ?_⟩
      intro position hposition
      cases hposition
      refine ⟨h.enter hc hlookup hpos hlt hdecoration hfree,
        ⟨.ofSize c.r.decoration (sizeOfInt c.count), ?_, rfl, ?_, fun _ => rfl⟩,
        fun c' _ hs => hs.enter _ _ _⟩
      · rw [enter_table, if_pos rfl]
        exact mem_cons_self ..
      · intro o ho
        obtain ⟨w, hw, hor⟩ := h.words c hc o ho
        rcases hor with rfl | ⟨range, hrange, -⟩
        · exact hw
        · exact absurd hrange (lookup_not_mem hlookup range)
    · -- another one is searched for
      rw [if_neg hfree]
      have hsmall : claimed (s.table c.mapper) + (s.table c.mapper).length * c.count.toNat <
          2 ^ 32 := by
        calc claimed (s.table c.mapper) + (s.table c.mapper).length * c.count.toNat
            ≤ total acts + acts.length * total acts :=
              Nat.add_le_add ((h.small _).trans hm)
                (Nat.mul_le_mul ((h.few _).trans hn) hcount)
          _ = (acts.length + 1) * total acts := by ring
          _ < 2 ^ 32 := hclaims.few
      obtain ⟨i, hi, hifree⟩ := exists_free hpos hlt hsmall
      obtain ⟨j, hj, hjfree, hr⟩ := getFreeBinding_result s hi hifree
      rw [result_bind_ok hr]
      have hwrite := writeBinding_result c.stage c.name c.r j s
      cases ho : c.r.offset with
      | none =>
        rw [ho] at hwrite
        rw [result_bind_error hwrite]
        refine ⟨_, _, rfl, ?_⟩
        intro position hposition
        cases hposition
      | some o =>
        rw [ho] at hwrite
        rw [result_bind_ok hwrite, result_bind_ok (result_modify _ _),
          result_pure]
        refine ⟨_, _, rfl, ?_⟩
        intro position hposition
        cases hposition
        have henter := h.enter hc hlookup hpos hlt hj hjfree
        have hmem : (c.name, .ofSize j (sizeOfInt c.count)) ∈
            (s.enter c.mapper c.name (.ofSize j (sizeOfInt c.count))).table c.mapper := by
          rw [enter_table, if_pos rfl]
          exact mem_cons_self ..
        -- writing and entering do not disturb each other
        have hcomm : (s.write c.stage o j).enter c.mapper c.name
            (.ofSize j (sizeOfInt c.count)) =
          (s.enter c.mapper c.name (.ofSize j (sizeOfInt c.count))).write c.stage o j := rfl
        obtain ⟨w, hw, -⟩ := h.words c hc o ho
        refine ⟨henter.write hdec hc hmem ho, ⟨_, hmem, rfl, ?_, ?_⟩, ?_⟩
        · intro o' ho'
          rw [ho] at ho'
          cases ho'
          exact write_self hw
        · intro hnone
          rw [ho] at hnone
          cases hnone
        · intro c' hc' hs
          exact (hs.enter _ _ _).write henter hdec hc hc' hmem ho

theorem Written.answered {position : Nat} (h : Written c position s) :
    Settled c (s.answered c.mapper c.name position) := by
  obtain ⟨range, hrange, rfl, hword, hnone⟩ := h
  refine ⟨range, hrange, hword, hnone, ?_⟩
  show update s.answer c.mapper
    (update (s.answer c.mapper) c.name (some range.first)) c.mapper c.name = _
  rw [update_self, update_self]

theorem Settled.answered (h : Inv acts n m s) {c' : Call} {position : Nat}
    (hc : Written c position s) (hs : Settled c' s) :
    Settled c' (s.answered c.mapper c.name position) := by
  obtain ⟨range, hrange, rfl, -, -⟩ := hc
  obtain ⟨range', hrange', hword, hnone, hanswer⟩ := hs
  refine ⟨range', hrange', hword, hnone, ?_⟩
  show update s.answer c.mapper
    (update (s.answer c.mapper) c.name (some range.first)) c'.mapper c'.name = _
  by_cases hmapper : c'.mapper = c.mapper
  · rw [hmapper, update_self]
    by_cases hname : c'.name = c.name
    · rw [hname, update_self]
      rw [hmapper, hname] at hrange'
      rw [h.unique hrange' hrange]
    · rw [update_of_ne hname, ← hmapper]
      exact hanswer
  · rw [update_of_ne hmapper]
    exact hanswer

/-- **A run of the actions** ends; if no exception is thrown, the invariant holds, and every
resource is settled that was or is mapped. -/
theorem runActions_result (hdec : Decorated acts spirv) (hclaims : ClaimsEnough acts)
    (rest : List (Nat × Action)) (hrest : ∀ a ∈ rest, a ∈ acts) (h : Inv acts n m s)
    (hn : n + rest.length ≤ acts.length) (hm : m + total rest ≤ total acts) :
    ∃ r t, (runActions rest).result s = some (r, t) ∧
      (r = .ok () → Inv acts (n + rest.length) (m + total rest) t ∧
        ∀ c : Call, c.action ∈ acts → Settled c s ∨ c.action ∈ rest → Settled c t) := by
  induction rest generalizing n m s with
  | nil =>
    refine ⟨.ok (), s, result_pure () s, fun _ => ⟨h, ?_⟩⟩
    intro c _ hor
    exact hor.resolve_right (not_mem_nil)
  | cons a rest ih =>
    obtain ⟨stage, action⟩ := a
    have hlength : ((stage, action) :: rest).length = rest.length + 1 := length_cons
    have htotal : total ((stage, action) :: rest) = action.size + total rest := sum_cons
    rw [hlength] at hn ⊢
    rw [htotal] at hm ⊢
    rw [runActions]
    cases action with
    | refuse message =>
      have hr : (act stage (.refuse message)).result s = some (.error message, s) :=
        result_throw message s
      rw [result_bind_error hr]
      refine ⟨_, _, rfl, ?_⟩
      intro hok
      cases hok
    | place k name count r =>
      have hc : (Call.mk stage k name count r).action ∈ acts :=
        hrest _ (mem_cons_self ..)
      obtain ⟨res, t, hr, hgood⟩ := place_result h hdec hclaims (by omega) (by omega) hc
      rcases res with message | position
      · have hact : (act stage (.place k name count r)).result s = some (.error message, t) :=
          result_bind_error hr
        rw [result_bind_error hact]
        refine ⟨_, _, rfl, ?_⟩
        intro hok
        cases hok
      · obtain ⟨hinv, hwritten, hkept⟩ := hgood position rfl
        have hcounted : Inv acts (n + 1) (m + count.toNat) t := hinv
        have hact : (act stage (.place k name count r)).result s =
            some (.ok (), t.answered k name position) :=
          (result_bind_ok hr).trans (result_modify _ t)
        rw [result_bind_ok hact]
        have hsize : (Action.place k name count r).size = count.toNat := rfl
        obtain ⟨res, u, hu, hafter⟩ := ih (fun a ha => hrest a (mem_cons_of_mem _ ha))
          (hcounted.answered k name position) (by omega) (by omega)
        refine ⟨res, u, hu, ?_⟩
        intro hok
        obtain ⟨huinv, husettled⟩ := hafter hok
        refine ⟨huinv.mono (by omega) (by omega), ?_⟩
        intro c hcacts hor
        rcases hor with hs | hmem
        · exact husettled c hcacts (.inl (.answered hinv hwritten (hkept c hcacts hs)))
        · rcases mem_cons.mp hmem with heq | hlater
          · have hcall : c = ⟨stage, k, name, count, r⟩ := by
              cases c
              cases heq
              rfl
            rw [hcall] at hcacts ⊢
            exact husettled _ hcacts (.inl hwritten.answered)
          · exact husettled c hcacts (.inr hlater)

/-! ## Interfaces that do not collide -/

/-- What the mapping is for: each mapper gives its names positions, which are answered and
are in the words of every stage (or are the ones suggested, where there is no word), and
what differently named resources occupy does not overlap. -/
def Agreed (acts : List (Nat × Action)) (s : Interface) : Prop :=
  ∀ k, ∃ position : String → Nat,
    (∀ c : Call, c.action ∈ acts → c.mapper = k →
      s.answer k c.name = some (position c.name) ∧
      (∀ o, c.r.offset = some o → (s.spirv c.stage)[o]? = some (position c.name)) ∧
      (c.r.offset = none → c.r.decoration = position c.name)) ∧
    ∀ c c' : Call, c.action ∈ acts → c'.action ∈ acts → c.mapper = k → c'.mapper = k →
      c.name ≠ c'.name →
      position c.name + c.r.occupied ≤ position c'.name ∨
        position c'.name + c'.r.occupied ≤ position c.name

/-- The mapping ends, and it throws, or the interfaces agree. -/
def MapsSoundly (acts : List (Nat × Action)) : Option (Except String Unit × Interface) → Prop
  | none => False
  | some (.error _, _) => True
  | some (.ok _, s) => Agreed acts s

theorem Inv.agreed (h : Inv acts n m s) (hclaims : ClaimsEnough acts)
    (hall : ∀ c : Call, c.action ∈ acts → Settled c s) : Agreed acts s := by
  intro k
  refine ⟨fun name => (s.answer k name).getD 0, ?_, ?_⟩
  · rintro c hc rfl
    obtain ⟨range, -, hword, hnone, hanswer⟩ := hall c hc
    dsimp only
    rw [hanswer]
    exact ⟨rfl, hword, hnone⟩
  · rintro c c' hc hc' rfl hmapper hne
    obtain ⟨range, hrange, -, -, hanswer⟩ := hall c hc
    obtain ⟨range', hrange', -, -, hanswer'⟩ := hall c' hc'
    rw [hmapper] at hrange' hanswer'
    dsimp only
    rw [hanswer, hanswer']
    obtain ⟨-, d, hd, hdmapper, hdname, hdlast⟩ := h.entries _ _ _ hrange
    obtain ⟨-, d', hd', hdmapper', hdname', hdlast'⟩ := h.entries _ _ _ hrange'
    have hocc := hclaims.occupied d c hd hc hdmapper hdname
      ⟨c', hc', hmapper.trans hdmapper.symm, fun heq => hne (hdname.symm.trans heq.symm)⟩
    have hocc' := hclaims.occupied d' c' hd' hc' (hdmapper'.trans hmapper.symm) hdname'
      ⟨c, hc, hdmapper'.symm, fun heq => hne (heq.trans hdname')⟩
    have hapart := (h.apart c.mapper).forall hrange hrange'
      fun heq => hne (congrArg Prod.fst heq)
    have hor : range'.last < range.first ∨ range.last < range'.first := hapart.2
    show range.first + c.r.occupied ≤ range'.first ∨ range'.first + c'.r.occupied ≤ range.first
    omega

/-- **Interfaces do not collide** if every resource claims what those of its name occupy. -/
theorem mapInterface_sound (reflection : Reflection) (stages : List StageCode)
    (hdec : Decorated (allActions reflection stages) (fresh stages).spirv)
    (hclaims : ClaimsEnough (allActions reflection stages)) :
    MapsSoundly (allActions reflection stages)
      ((mapInterface reflection stages).result (fresh stages)) := by
  have hinit : Inv (allActions reflection stages) 0 0 (fresh stages) := by
    refine ⟨?_, fun _ => .nil, fun _ => le_rfl, fun _ => le_rfl, ?_⟩
    · intro k name range hmem
      cases hmem
    · intro c hc o ho
      exact ⟨_, hdec.word c hc o ho, .inl rfl⟩
  obtain ⟨r, t, hr, hafter⟩ := runActions_result hdec hclaims
    (allActions reflection stages) (fun _ ha => ha) hinit (by omega) (by omega)
  rw [mapInterface, hr]
  cases r with
  | error message => trivial
  | ok u =>
    obtain ⟨hinv, hsettled⟩ := hafter rfl
    exact hinv.agreed hclaims fun c hc => hsettled c hc (.inr hc)

/-! ### Two interfaces -/

/-- Nothing is known. -/
def noReflection : Reflection := ⟨fun _ => none, fun _ => none, fun _ => none, fun _ => none⟩

theorem Call.eq_of_action {stage : Nat} {r : Resource}
    (h : c.action = (stage, .place k name count r)) :
    c = ⟨stage, k, name, count, r⟩ := by
  cases c
  cases h
  rfl

theorem decorated_pair {name' : String} {count' : Int} {r r' : Resource}
    (hr : r.decoration < 2 ^ 32) (hr' : r'.decoration < 2 ^ 32) (ho : r.offset = some 0)
    (ho' : r'.offset = some 1) (hword : (spirv 0)[0]? = some r.decoration)
    (hword' : (spirv 0)[1]? = some r'.decoration) :
    Decorated [(0, .place k name count r), (0, .place k name' count' r')] spirv := by
  have hcases : ∀ c : Call, c.action ∈ [((0 : Nat), .place k name count r),
      (0, .place k name' count' r')] →
      c = ⟨0, k, name, count, r⟩ ∨ c = ⟨0, k, name', count', r'⟩ := by
    intro c hc
    rcases mem_cons.mp hc with h | h
    · exact Or.inl (Call.eq_of_action h)
    · exact Or.inr (Call.eq_of_action (mem_singleton.mp h))
  constructor
  · intro c hc
    rcases hcases c hc with rfl | rfl
    · exact hr
    · exact hr'
  · intro c hc o hoff
    rcases hcases c hc with rfl | rfl
    · rw [ho] at hoff
      cases hoff
      exact hword
    · rw [ho'] at hoff
      cases hoff
      exact hword'
  · intro c c' hc hc' _ o hoff hoff'
    rcases hcases c hc with rfl | rfl
    · rcases hcases c' hc' with rfl | rfl
      · exact ⟨rfl, rfl⟩
      · rw [ho] at hoff
        rw [ho'] at hoff'
        cases hoff
        cases hoff'
    · rcases hcases c' hc' with rfl | rfl
      · rw [ho'] at hoff
        rw [ho] at hoff'
        cases hoff
        cases hoff'
      · exact ⟨rfl, rfl⟩

/-- A vertex stage with two inputs. -/
def inputStage (r r' : Resource) : StageCode where
  stage := .vertex
  spirv := [r.decoration, r'.decoration]
  uniformBuffers := []
  sampledImages := []
  storageBuffers := []
  storageImages := []
  stageInputs := [r, r']
  stageOutputs := []

def instancePosition : Resource := ⟨"InstancePosition", true, {}, 0, some 0⟩

def instanceMatrix : Resource :=
  ⟨"InstanceMatrix", true, { isMatrix := true, columns := 4 }, 0, some 0⟩

/-- Suggested at the same location. -/
def instanceColor : Resource := ⟨"InstanceColor", true, {}, 0, some 1⟩

/-- Suggested behind the first column of the matrix. -/
def instanceTint : Resource := ⟨"InstanceTint", true, {}, 1, some 1⟩

theorem mapInterface_sound_inputs :
    MapsSoundly (allActions noReflection [inputStage instancePosition instanceColor])
      ((mapInterface noReflection [inputStage instancePosition instanceColor]).result
        (fresh [inputStage instancePosition instanceColor])) := by
  have hacts : allActions noReflection [inputStage instancePosition instanceColor] =
      [(0, .place .vertexInputLocation "InstancePosition" 1 instancePosition),
       (0, .place .vertexInputLocation "InstanceColor" 1 instanceColor)] := rfl
  apply mapInterface_sound
  · exact decorated_pair (by decide) (by decide) rfl rfl rfl rfl
  · have hcases : ∀ c : Call, c.action ∈
        [((0 : Nat), .place .vertexInputLocation "InstancePosition" 1 instancePosition),
         (0, .place .vertexInputLocation "InstanceColor" 1 instanceColor)] →
        c.count = 1 ∧ c.r.occupied = 1 := by
      intro c hc
      rcases mem_cons.mp hc with h | h
      · rw [Call.eq_of_action h]
        exact ⟨rfl, rfl⟩
      · rw [Call.eq_of_action (mem_singleton.mp h)]
        exact ⟨rfl, rfl⟩
    refine ⟨?_, ?_, by decide⟩
    · intro c hc
      rw [(hcases c hc).1]
      decide
    · intro c c' hc hc' _ _ _
      rw [(hcases c hc).1, (hcases c' hc').2]
      decide

/-- A matrix claims one location, and an input that is suggested at the next one keeps it. -/
theorem not_mapsSoundly_matrix :
    Decorated (allActions noReflection [inputStage instanceMatrix instanceTint])
        (fresh [inputStage instanceMatrix instanceTint]).spirv ∧
      ¬ MapsSoundly (allActions noReflection [inputStage instanceMatrix instanceTint])
        ((mapInterface noReflection [inputStage instanceMatrix instanceTint]).result
          (fresh [inputStage instanceMatrix instanceTint])) := by
  have hacts : allActions noReflection [inputStage instanceMatrix instanceTint] =
      [(0, .place .vertexInputLocation "InstanceMatrix" 1 instanceMatrix),
       (0, .place .vertexInputLocation "InstanceTint" 1 instanceTint)] := rfl
  constructor
  · exact decorated_pair (by decide) (by decide) rfl rfl rfl rfl
  · obtain ⟨t, ht, hmatrix, htint⟩ : ∃ t,
        (mapInterface noReflection [inputStage instanceMatrix instanceTint]).run 1
          (fresh [inputStage instanceMatrix instanceTint]) = some (.ok (), t) ∧
        t.answer .vertexInputLocation "InstanceMatrix" = some 0 ∧
        t.answer .vertexInputLocation "InstanceTint" = some 1 := ⟨_, rfl, rfl, rfl⟩
    rw [result_of_run ht]
    intro hagreed
    obtain ⟨position, hposition, hapart⟩ := hagreed .vertexInputLocation
    have hfirst : (Call.mk 0 .vertexInputLocation "InstanceMatrix" 1 instanceMatrix).action ∈
        [((0 : Nat), Action.place .vertexInputLocation "InstanceMatrix" 1 instanceMatrix),
         (0, .place .vertexInputLocation "InstanceTint" 1 instanceTint)] :=
      mem_cons_self ..
    have hsecond : (Call.mk 0 .vertexInputLocation "InstanceTint" 1 instanceTint).action ∈
        [((0 : Nat), Action.place .vertexInputLocation "InstanceMatrix" 1 instanceMatrix),
         (0, .place .vertexInputLocation "InstanceTint" 1 instanceTint)] :=
      mem_cons_of_mem _ (mem_singleton_self _)
    have hp := (hposition _ hfirst rfl).1
    have hp' := (hposition _ hsecond rfl).1
    have hor := hapart _ _ hfirst hsecond rfl rfl (by decide)
    rw [hmatrix] at hp
    rw [htint] at hp'
    rw [← Option.some.inj hp, ← Option.some.inj hp'] at hor
    exact absurd hor (by decide)

end Lhatove.Vulkan
