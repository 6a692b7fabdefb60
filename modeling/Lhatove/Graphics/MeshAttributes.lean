import Lhatove.Graphics.Mesh

/-!
# The attributes of a mesh are told apart

- `Distinct`: keys of which no two that count are equal, and what writes to a
  list keep of it;
- `names_distinct`: no two attributes have one name, in any run;
- `attributes_unambiguous`: and no two have one location, in runs that give no
  attribute the location of another one.
-/

namespace Lhatove.Graphics

open List

/-! ## Keys -/

section Distinct

variable {α κ : Type} [DecidableEq κ] {P : κ → Prop}

/-- Keys of which no two that count are equal. -/
def Distinct (P : κ → Prop) (keys : List κ) : Prop := keys.Pairwise fun x y => P x → x ≠ y

instance [DecidablePred P] (keys : List κ) : Decidable (Distinct P keys) :=
  inferInstanceAs (Decidable (keys.Pairwise _))

omit [DecidableEq κ] in
theorem Distinct.eraseIdx {keys : List κ} (h : Distinct P keys) (i : Nat) :
    Distinct P (keys.eraseIdx i) :=
  .sublist (eraseIdx_sublist ..) h

omit [DecidableEq κ] in
theorem Distinct.concat {keys : List κ} (h : Distinct P keys) {x : κ}
    (hx : P x → ∀ y ∈ keys, y ≠ x) : Distinct P (keys ++ [x]) := by
  refine pairwise_append.mpr ⟨h, pairwise_singleton .., ?_⟩
  intro y hy z hz hPy heq
  rw [mem_singleton.mp hz] at heq
  exact hx (heq ▸ hPy) y hy heq

omit [DecidableEq κ] in
theorem Distinct.set {keys : List κ} (h : Distinct P keys) {i : Nat} {x : κ}
    (hx : P x → ∀ j (hj : j < keys.length), i ≠ j → keys[j] ≠ x) : Distinct P (keys.set i x) := by
  refine pairwise_iff_getElem.mpr fun j k hj hk hjk hP => ?_
  have h' := pairwise_iff_getElem.mp h
  rw [length_set] at hj hk
  rw [getElem_set] at hP ⊢
  rw [getElem_set]
  by_cases hij : i = j
  · have hik : i ≠ k := by omega
    rw [if_pos hij, if_neg hik]
    rw [if_pos hij] at hP
    exact (hx hP k hk hik).symm
  · rw [if_neg hij] at hP ⊢
    split
    · intro heq
      exact hx (heq ▸ hP) j hj hij heq
    · exact h' j k hj hk hjk hP

theorem Distinct.ne_of_findIdx? {l : List α} {k : α → κ} (h : Distinct P (l.map k)) {x : κ}
    (hx : P x) {j : Nat} (hj : j < l.length)
    (hne : (l.findIdx? fun a => k a = x) ≠ some j) : k l[j] ≠ x := by
  intro heq
  have h' := pairwise_iff_getElem.mp h
  simp only [length_map, getElem_map] at h'
  cases hfind : l.findIdx? fun a => k a = x with
  | none =>
    have hno := findIdx?_eq_none_iff.mp hfind l[j] (getElem_mem hj)
    exact of_decide_eq_false hno heq
  | some i =>
    obtain ⟨hi, hik, -⟩ := findIdx?_eq_some_iff_getElem.mp hfind
    have hik := of_decide_eq_true hik
    rcases Nat.lt_trichotomy i j with hij | rfl | hij
    · exact h' i j hi hj hij (hik ▸ hx) (hik.trans heq.symm)
    · exact hne hfind
    · exact h' j i hj hi hij (heq ▸ hx) (heq.trans hik.symm)

theorem ne_of_findIdx?_eq_length {done rest : List α} {k : α → κ} {x : κ}
    (h : (done ++ rest).findIdx? (fun a => k a = x) = some done.length) :
    ∀ b ∈ done, k b ≠ x := by
  intro b hb heq
  obtain ⟨hlength, -, hbefore⟩ := findIdx?_eq_some_iff_getElem.mp h
  obtain ⟨j, hj, rfl⟩ := getElem_of_mem hb
  have hno := hbefore j hj
  rw [getElem_append_left hj] at hno
  exact hno (decide_eq_true heq)

end Distinct

/-! ## One attribute -/

/-- The names of attributes, those that there are, are different. -/
def NamesDistinct (attributes : List BufferAttribute) : Prop :=
  Distinct (· ≠ "") (attributes.map (·.name))

/-- The binding locations are different. -/
def LocationsDistinct (attributes : List BufferAttribute) : Prop :=
  Distinct (0 ≤ ·) (attributes.map (·.bindingLocation))

instance (attributes : List BufferAttribute) : Decidable (LocationsDistinct attributes) :=
  inferInstanceAs (Decidable (Distinct _ _))

theorem names_nil : NamesDistinct [] := .nil

theorem locations_nil : LocationsDistinct [] := .nil

variable {a : BufferAttribute}

/-- **Spec of `finalizeAttribute`.** -/
theorem BufferAttribute.finalize_spec {b : BufferAttribute} (h : a.finalize = .ok b) :
    b.name = a.name ∧ b.bindingLocation = a.impliedLocation := by
  rw [finalize] at h
  split_ifs at h
  rw [impliedLocation]
  cases hmember : a.findMember with
  | error message =>
    rw [hmember] at h
    cases h
  | ok index =>
    rw [hmember] at h
    dsimp only at h
    split_ifs at h
    cases h
    exact ⟨rfl, rfl⟩

theorem BufferAttribute.impliedLocation_eq (h : 0 ≤ a.bindingLocation) :
    a.impliedLocation = a.bindingLocation := by
  rw [impliedLocation]
  split
  · rw [resolve, if_neg (not_lt.mpr h), if_neg (not_lt.mpr h)]
  · rfl

open Mesh

variable {attributes : List BufferAttribute} {oldindex : Option Nat}

theorem Distinct.place {κ : Type} {P : κ → Prop} {k : BufferAttribute → κ}
    (h : Distinct P (attributes.map k))
    (ha : P (k a) → ∀ j (hj : j < attributes.length), oldindex ≠ some j → k attributes[j] ≠ k a) :
    Distinct P ((place attributes oldindex a).map k) := by
  cases oldindex with
  | none =>
    rw [Mesh.place, map_append]
    refine h.concat fun hP y hy => ?_
    obtain ⟨b, hb, rfl⟩ := mem_map.mp hy
    obtain ⟨j, hj, rfl⟩ := getElem_of_mem hb
    exact ha hP j hj (Option.some_ne_none j).symm
  | some i =>
    rw [Mesh.place, map_set]
    refine h.set fun hP j hj hij => ?_
    rw [getElem_map]
    rw [length_map] at hj
    exact ha hP j hj fun heq => hij (Option.some.inj heq)

variable {mesh mesh' : Mesh}

theorem Mesh.attach_spec (h : mesh.attach oldindex a = .ok mesh') : ∃ b, a.finalize = .ok b ∧
      mesh'.attachedAttributes = place mesh.attachedAttributes oldindex b := by
  rw [attach] at h
  split_ifs at h
  cases hfinal : a.finalize with
  | error message =>
    rw [hfinal] at h
    cases h
  | ok b =>
    rw [hfinal] at h
    cases h
    exact ⟨b, rfl, rfl⟩

/-- No other attribute has the location that the attribute will have. -/
def LocationFree (attributes : List BufferAttribute) (oldindex : Option Nat)
    (a : BufferAttribute) : Prop :=
  0 ≤ a.impliedLocation → ∀ j (hj : j < attributes.length), oldindex ≠ some j →
    attributes[j].bindingLocation ≠ a.impliedLocation

theorem Mesh.attach_locations (hl : LocationsDistinct mesh.attachedAttributes)
    (hfree : LocationFree mesh.attachedAttributes oldindex a)
    (h : mesh.attach oldindex a = .ok mesh') : LocationsDistinct mesh'.attachedAttributes := by
  obtain ⟨b, hfinal, heq⟩ := attach_spec h
  obtain ⟨-, hloc⟩ := BufferAttribute.finalize_spec hfinal
  rw [LocationsDistinct, heq]
  refine .place hl ?_
  rw [hloc]
  exact hfree

theorem Mesh.attach_names (hn : NamesDistinct mesh.attachedAttributes)
    (hold : a.name ≠ "" → oldindex = indexOfName mesh.attachedAttributes a.name)
    (h : mesh.attach oldindex a = .ok mesh') : NamesDistinct mesh'.attachedAttributes := by
  obtain ⟨b, hfinal, heq⟩ := attach_spec h
  obtain ⟨hname, -⟩ := BufferAttribute.finalize_spec hfinal
  rw [NamesDistinct, heq]
  refine .place hn ?_
  rw [hname]
  intro hne j hj hother
  rw [hold hne] at hother
  exact Distinct.ne_of_findIdx? hn hne hj hother

theorem locationFree_of_nonneg (hl : LocationsDistinct attributes)
    (hnonneg : 0 ≤ a.bindingLocation) :
    LocationFree attributes (indexOfLocation attributes a.bindingLocation) a := by
  rw [LocationFree, BufferAttribute.impliedLocation_eq hnonneg]
  exact fun _ j hj hold => Distinct.ne_of_findIdx? hl hnonneg hj hold

/-! ## Constructors -/

/-- The members of a buffer imply different locations. -/
def ImpliedDistinct (members : List DataMember) : Prop :=
  Distinct (0 ≤ ·) (members.map (·.impliedLocation))

instance (members : List DataMember) : Decidable (ImpliedDistinct members) :=
  inferInstanceAs (Decidable (Distinct _ _))

variable {buffer : VertexBuffer} {members : List DataMember} {index : Nat}
  {attributes' : List BufferAttribute}

theorem setupAttachedAttributes_names (hn : NamesDistinct attributes)
    (h : setupAttachedAttributes buffer members index attributes = .ok attributes') :
    NamesDistinct attributes' := by
  induction members generalizing index attributes with
  | nil =>
    cases h
    exact hn
  | cons m members ih =>
    rw [setupAttachedAttributes] at h
    split_ifs at h with hloc hname
    refine ih ?_ h
    rw [NamesDistinct, map_append]
    refine hn.concat fun hne y hy => ?_
    obtain ⟨b, hb, rfl⟩ := mem_map.mp hy
    have hnone : indexOfName attributes m.name = none :=
      not_not.mp fun hsome => hname ⟨hne, hsome⟩
    exact of_decide_eq_false (findIdx?_eq_none_iff.mp hnone b hb)

theorem setupAttachedAttributes_locations
    (hl : Distinct (0 ≤ ·) (attributes.map (·.bindingLocation) ++ members.map (·.impliedLocation)))
    (h : setupAttachedAttributes buffer members index attributes = .ok attributes') :
    LocationsDistinct attributes' := by
  induction members generalizing index attributes with
  | nil =>
    cases h
    rwa [map_nil, append_nil] at hl
  | cons m members ih =>
    rw [setupAttachedAttributes] at h
    split_ifs at h
    refine ih ?_ h
    rw [map_append, append_assoc]
    exact hl

theorem locations_of_implied (hm : ImpliedDistinct members)
    (h : setupAttachedAttributes buffer members 0 [] = .ok attributes) :
    LocationsDistinct attributes := by
  refine setupAttachedAttributes_locations ?_ h
  exact hm

theorem finalizeAttributes_distinct {done rest : List BufferAttribute} (hn : NamesDistinct done)
    (hl : LocationsDistinct done) (h : finalizeAttributes done rest = .ok attributes) :
    NamesDistinct attributes ∧ LocationsDistinct attributes := by
  induction rest generalizing done with
  | nil =>
    cases h
    exact ⟨hn, hl⟩
  | cons a rest ih =>
    rw [finalizeAttributes] at h
    split at h
    · cases h
    next b hfinal =>
      split_ifs at h with hloc hname
      refine ih ?_ ?_ h
      · rw [NamesDistinct, map_append]
        refine hn.concat fun hne y hy => ?_
        obtain ⟨c, hc, rfl⟩ := mem_map.mp hy
        exact ne_of_findIdx?_eq_length (not_not.mp fun hsome => hname ⟨hne, hsome⟩) c hc
      · rw [LocationsDistinct, map_append]
        refine hl.concat fun hnonneg y hy => ?_
        obtain ⟨c, hc, rfl⟩ := mem_map.mp hy
        exact ne_of_findIdx?_eq_length (not_not.mp fun hsome => hloc ⟨hnonneg, hsome⟩) c hc

/-! ## Calls -/

/-- The attribute that a call puts, and where: the mesh that it is put in, and
the place of an attribute that it replaces. -/
def MeshOp.puts (mesh : Mesh) : MeshOp → Option (Mesh × Option Nat × BufferAttribute)
  | .attachNamed name buffer attachname startindex step =>
    some (mesh, indexOfName mesh.attachedAttributes name,
      mesh.attributeNamed name buffer attachname startindex step)
  | .attachAt bindingLocation buffer attachBindingLocation startindex step =>
    some (mesh, indexOfLocation mesh.attachedAttributes bindingLocation,
      mesh.attributeAt bindingLocation buffer attachBindingLocation startindex step)
  | .detachNamed name =>
    match indexOfName mesh.attachedAttributes name, mesh.vertexBuffer with
    | some index, some buffer =>
      some (mesh.erase index, indexOfName (mesh.erase index).attachedAttributes name,
        (mesh.erase index).attributeNamed name buffer name 0 .perVertex)
    | _, _ => none
  | .detachAt bindingLocation =>
    match indexOfLocation mesh.attachedAttributes bindingLocation, mesh.vertexBuffer with
    | some index, some buffer =>
      some (mesh.erase index,
        indexOfLocation (mesh.erase index).attachedAttributes bindingLocation,
        (mesh.erase index).attributeAt bindingLocation buffer bindingLocation 0 .perVertex)
    | _, _ => none
  | _ => none

/-- What a call does to the attributes. -/
inductive Changes (mesh : Mesh) (op : MeshOp) : Mesh → Prop
  | same : Changes mesh op mesh
  | erased (index : Nat) : Changes mesh op (mesh.erase index)
  | enabled (index : Nat) (enabled : Bool) : Changes mesh op (mesh.enable index enabled)
  | put (base : Mesh) (oldindex : Option Nat) (a : BufferAttribute) {mesh' : Mesh} :
    op.puts mesh = some (base, oldindex, a) → base.attach oldindex a = .ok mesh' →
      Changes mesh op mesh'

variable {base : Mesh} {op : MeshOp}

theorem Changes.orElse {result : Except String Mesh} (hbase : Changes mesh op base)
    (h : ∀ mesh', result = .ok mesh' → Changes mesh op mesh') :
    Changes mesh op (base.orElse result).2 := by
  cases result with
  | ok mesh' => exact h mesh' rfl
  | error message => exact hbase

theorem detachNamed_changes (mesh : Mesh) (name : String) :
    Changes mesh (.detachNamed name) (mesh.detachNamed name).2 := by
  rw [detachNamed]
  cases hindex : indexOfName mesh.attachedAttributes name with
  | none => exact .same
  | some index =>
    cases hbuffer : mesh.vertexBuffer with
    | none => exact .erased index
    | some buffer =>
      dsimp only
      split_ifs
      · exact .erased index
      · refine .orElse (.erased index) fun mesh' hok => .put _ _ _ ?_ hok
        rw [MeshOp.puts, hindex, hbuffer]

theorem detachAt_changes (mesh : Mesh) (bindingLocation : Int) :
    Changes mesh (.detachAt bindingLocation) (mesh.detachAt bindingLocation).2 := by
  rw [detachAt]
  cases hindex : indexOfLocation mesh.attachedAttributes bindingLocation with
  | none => exact .same
  | some index =>
    cases hbuffer : mesh.vertexBuffer with
    | none => exact .erased index
    | some buffer =>
      dsimp only
      split_ifs
      · exact .erased index
      · refine .orElse (.erased index) fun mesh' hok => .put _ _ _ ?_ hok
        rw [MeshOp.puts, hindex, hbuffer]

theorem setEnabledNamed_changes (mesh : Mesh) (op : MeshOp) (name : String) (enabled : Bool) :
    Changes mesh op (mesh.orSame (mesh.setEnabledNamed name enabled)) := by
  rw [setEnabledNamed]
  cases indexOfName mesh.attachedAttributes name with
  | none => exact .same
  | some index => exact .enabled index enabled

theorem setEnabledAt_changes (mesh : Mesh) (op : MeshOp) (bindingLocation : Int) (enabled : Bool) :
    Changes mesh op (mesh.orSame (mesh.setEnabledAt bindingLocation enabled)) := by
  rw [setEnabledAt]
  cases indexOfLocation mesh.attachedAttributes bindingLocation with
  | none => exact .same
  | some index => exact .enabled index enabled

/-- **What a member function does.** -/
theorem meshStep_changes
    (h : meshStep (some mesh) op = some (some mesh')) : Changes mesh op mesh' := by
  cases op with
  | ofData buffer | ofCount vertexcount buffer memory | ofAttributes attributes => cases h
  | attachNamed name buffer attachname startindex step =>
    cases h
    exact .orElse .same fun mesh' hok => .put _ _ _ rfl hok
  | attachAt bindingLocation buffer attachBindingLocation startindex step =>
    cases h
    exact .orElse .same fun mesh' hok => .put _ _ _ rfl hok
  | detachNamed name =>
    cases h
    exact detachNamed_changes mesh name
  | detachAt bindingLocation =>
    cases h
    exact detachAt_changes mesh bindingLocation
  | setEnabledNamed name enabled =>
    cases h
    exact setEnabledNamed_changes mesh _ name enabled
  | setEnabledAt bindingLocation enabled =>
    cases h
    exact setEnabledAt_changes mesh _ bindingLocation enabled

/-- What is put is found by its name, if it has one, or by its location; it is
put in the mesh, or in the mesh without the attribute that is detached. -/
theorem MeshOp.puts_spec (h : op.puts mesh = some (base, oldindex, a)) :
    (base = mesh ∨ ∃ index, base = mesh.erase index) ∧
    (oldindex = indexOfName base.attachedAttributes a.name ∧ a.bindingLocation < 0 ∨
      oldindex = indexOfLocation base.attachedAttributes a.bindingLocation ∧ a.name = "") := by
  cases op with
  | attachNamed name buffer attachname startindex step =>
    cases h
    exact ⟨.inl rfl, .inl ⟨rfl, Int.negSucc_lt_zero 0⟩⟩
  | attachAt bindingLocation buffer attachBindingLocation startindex step =>
    cases h
    exact ⟨.inl rfl, .inr ⟨rfl, rfl⟩⟩
  | detachNamed name =>
    rw [puts] at h
    split at h
    · cases h
      exact ⟨.inr ⟨_, rfl⟩, .inl ⟨rfl, Int.negSucc_lt_zero 0⟩⟩
    · cases h
  | detachAt bindingLocation =>
    rw [puts] at h
    split at h
    · cases h
      exact ⟨.inr ⟨_, rfl⟩, .inr ⟨rfl, rfl⟩⟩
    · cases h
  | _ => cases h

/-! ## Runs -/

theorem Mesh.enable_keys {κ : Type} {k : BufferAttribute → κ}
    (hk : ∀ a enabled, k { a with enabled := enabled } = k a) (mesh : Mesh) (index : Nat)
    (enabled : Bool) :
    (mesh.enable index enabled).attachedAttributes.map k = mesh.attachedAttributes.map k := by
  refine ext_getElem ?_ fun j _ _ => ?_
  · rw [length_map, length_map, enable, length_modify]
  · rw [getElem_map, getElem_map]
    simp only [enable, getElem_modify]
    split
    · exact hk _ _
    · rfl

theorem Mesh.erase_names (hn : NamesDistinct mesh.attachedAttributes) (index : Nat) :
    NamesDistinct (mesh.erase index).attachedAttributes := by
  rw [NamesDistinct, erase, ← eraseIdx_map]
  exact hn.eraseIdx index

theorem Mesh.erase_locations (hl : LocationsDistinct mesh.attachedAttributes)
    (index : Nat) : LocationsDistinct (mesh.erase index).attachedAttributes := by
  rw [LocationsDistinct, erase, ← eraseIdx_map]
  exact hl.eraseIdx index

theorem Changes.names (h : Changes mesh op mesh')
    (hn : NamesDistinct mesh.attachedAttributes) : NamesDistinct mesh'.attachedAttributes := by
  cases h with
  | same => exact hn
  | erased index => exact erase_names hn index
  | enabled index enabled =>
    rw [NamesDistinct, enable_keys fun _ _ => rfl]
    exact hn
  | put base oldindex a hputs hok =>
    obtain ⟨hbase, hold⟩ := MeshOp.puts_spec hputs
    have hn : NamesDistinct base.attachedAttributes := by
      rcases hbase with rfl | ⟨index, rfl⟩
      · exact hn
      · exact erase_names hn index
    refine attach_names hn (fun hne => ?_) hok
    rcases hold with ⟨hold, -⟩ | ⟨-, hempty⟩
    · exact hold
    · exact (hne hempty).elim

/-- A call gives no attribute the location of another one. A constructor from
vertices that succeeds is one for members that imply different locations. An
attribute without a location of its own, when it can be put, implies one that no
other attribute has. -/
def MeshOp.Clear : Option Mesh → MeshOp → Prop
  | _, .ofData buffer =>
    (Mesh.ofData buffer).isOk = true → ImpliedDistinct buffer.dataMembers
  | _, .ofCount vertexcount buffer memory =>
    (Mesh.ofCount vertexcount buffer memory).isOk = true → ImpliedDistinct buffer.dataMembers
  | some mesh, op => ∀ base oldindex a, op.puts mesh = some (base, oldindex, a) →
    (base.attach oldindex a).isOk = true → a.bindingLocation < 0 →
      LocationFree base.attachedAttributes oldindex a
  | none, _ => True

theorem Changes.locations (h : Changes mesh op mesh')
    (hclear : ∀ base oldindex a, op.puts mesh = some (base, oldindex, a) →
      (base.attach oldindex a).isOk = true → a.bindingLocation < 0 →
      LocationFree base.attachedAttributes oldindex a)
    (hl : LocationsDistinct mesh.attachedAttributes) :
    LocationsDistinct mesh'.attachedAttributes := by
  cases h with
  | same => exact hl
  | erased index => exact erase_locations hl index
  | enabled index enabled =>
    rw [LocationsDistinct, enable_keys fun _ _ => rfl]
    exact hl
  | put base oldindex a hputs hok =>
    obtain ⟨hbase, hold⟩ := MeshOp.puts_spec hputs
    have hl : LocationsDistinct base.attachedAttributes := by
      rcases hbase with rfl | ⟨index, rfl⟩
      · exact hl
      · exact erase_locations hl index
    refine attach_locations hl ?_ hok
    by_cases hneg : a.bindingLocation < 0
    · exact hclear base oldindex a hputs (by rw [hok]; rfl) hneg
    · rcases hold with ⟨-, hnone⟩ | ⟨rfl, -⟩
      · exact (hneg hnone).elim
      · exact locationFree_of_nonneg hl (not_lt.mp hneg)

theorem toOption_eq_some {α : Type} {result : Except String α} {a : α}
    (h : result.toOption = some a) : result = .ok a := by
  cases result with
  | ok b => exact congrArg Except.ok (Option.some.inj h)
  | error message => cases h

theorem ofData_spec (h : ofData buffer = .ok mesh) :
    setupAttachedAttributes buffer buffer.dataMembers 0 [] = .ok mesh.attachedAttributes := by
  rw [ofData] at h
  cases hsetup : setupAttachedAttributes buffer buffer.dataMembers 0 [] with
  | error message =>
    rw [hsetup] at h
    cases h
  | ok attributes =>
    rw [hsetup] at h
    cases h
    rfl

theorem ofCount_spec {vertexcount : Int} {memory : Bool}
    (h : ofCount vertexcount buffer memory = .ok mesh) :
    setupAttachedAttributes buffer buffer.dataMembers 0 [] = .ok mesh.attachedAttributes := by
  rw [ofCount] at h
  split at h
  · cases h
  cases hsetup : setupAttachedAttributes buffer buffer.dataMembers 0 [] with
  | error message =>
    rw [hsetup] at h
    cases h
  | ok attributes =>
    rw [hsetup] at h
    cases memory with
    | false => cases h
    | true =>
      cases h
      rfl

theorem ofAttributes_spec (h : ofAttributes attributes = .ok mesh) :
    NamesDistinct mesh.attachedAttributes ∧ LocationsDistinct mesh.attachedAttributes := by
  rw [ofAttributes] at h
  split_ifs at h
  split at h
  · cases h
  next attributes' hfinal =>
    cases h
    exact finalizeAttributes_distinct names_nil locations_nil hfinal

variable {s s' : Option Mesh}

theorem meshStep_names (hs : ∀ mesh, s = some mesh → NamesDistinct mesh.attachedAttributes)
    (h : meshStep s op = some s') :
    ∀ mesh, s' = some mesh → NamesDistinct mesh.attachedAttributes := by
  rintro mesh' rfl
  cases s with
  | some mesh => exact (meshStep_changes h).names (hs mesh rfl)
  | none =>
    cases op with
    | ofData buffer =>
      exact setupAttachedAttributes_names names_nil
        (ofData_spec (toOption_eq_some (Option.some.inj h)))
    | ofCount vertexcount buffer memory =>
      exact setupAttachedAttributes_names names_nil
        (ofCount_spec (toOption_eq_some (Option.some.inj h)))
    | ofAttributes attributes =>
      exact (ofAttributes_spec (toOption_eq_some (Option.some.inj h))).1
    | _ => cases h

theorem meshStep_locations (hs : ∀ mesh, s = some mesh → LocationsDistinct mesh.attachedAttributes)
    (hclear : op.Clear s) (h : meshStep s op = some s') :
    ∀ mesh, s' = some mesh → LocationsDistinct mesh.attachedAttributes := by
  rintro mesh' rfl
  cases s with
  | some mesh =>
    have hchanges := meshStep_changes h
    refine hchanges.locations ?_ (hs mesh rfl)
    cases op with
    | ofData buffer | ofCount vertexcount buffer memory => cases h
    | _ => exact hclear
  | none =>
    cases op with
    | ofData buffer =>
      have hok := toOption_eq_some (Option.some.inj h)
      exact locations_of_implied (hclear (by rw [hok]; rfl)) (ofData_spec hok)
    | ofCount vertexcount buffer memory =>
      have hok := toOption_eq_some (Option.some.inj h)
      exact locations_of_implied (hclear (by rw [hok]; rfl)) (ofCount_spec hok)
    | ofAttributes attributes =>
      exact (ofAttributes_spec (toOption_eq_some (Option.some.inj h))).2
    | _ => cases h

/-- **Attributes are told apart.** In every run, no two attributes have one name.
In the runs whose calls are all clear, no two have one location. -/
theorem attributes_unambiguous (mesh : Mesh) :
    (meshes.Reachable (some mesh) → NamesDistinct mesh.attachedAttributes) ∧
    ((meshes.restrict MeshOp.Clear).Reachable (some mesh) →
      LocationsDistinct mesh.attachedAttributes) := by
  constructor
  · intro h
    refine h.invariant
      (I := fun s => ∀ mesh, s = some mesh → NamesDistinct mesh.attachedAttributes)
      ?_ ?_ mesh rfl
    · rintro s rfl
      exact nofun
    · intro s op s' hs hstep
      exact meshStep_names hs hstep
  · intro h
    refine h.invariant_restrict
      (I := fun s => ∀ mesh, s = some mesh → LocationsDistinct mesh.attachedAttributes)
      ?_ ?_ mesh rfl
    · rintro s rfl
      exact nofun
    · intro s op s' hs hclear hstep
      exact meshStep_locations hs hclear hstep

/-! ### Meshes of two members -/

/-- A buffer of a position and texture coordinates, by their names. -/
def namedBuffer : VertexBuffer :=
  ⟨true, 3, [⟨"VertexPosition", -1⟩, ⟨"VertexTexCoord", -1⟩], by decide⟩

def namedMesh : Mesh :=
  ⟨some namedBuffer, 3, [ownAttribute namedBuffer 0 ⟨"VertexPosition", -1⟩,
    ownAttribute namedBuffer 1 ⟨"VertexTexCoord", -1⟩]⟩

theorem namedMesh_made : meshStep none (.ofCount 3 namedBuffer true) = some (some namedMesh) := by
  rfl

theorem attributes_unambiguous_named :
    NamesDistinct namedMesh.attachedAttributes ∧ LocationsDistinct namedMesh.attachedAttributes := by
  have hclear : (MeshOp.ofCount 3 namedBuffer true).Clear none := by
    intro _
    have hdistinct : ImpliedDistinct namedBuffer.dataMembers := by decide +kernel
    exact hdistinct
  have hreach : meshes.Reachable (some namedMesh) :=
    .step (.init rfl) namedMesh_made
  have hrestrict : (meshes.restrict MeshOp.Clear).Reachable (some namedMesh) :=
    .step (.init rfl) ⟨hclear, namedMesh_made⟩
  have hdistinct := attributes_unambiguous namedMesh
  exact ⟨hdistinct.1 hreach, hdistinct.2 hrestrict⟩

/-- A buffer of a member at the location 0, and a position without a location. -/
def mixedBuffer : VertexBuffer :=
  ⟨true, 3, [⟨"Offset", 0⟩, ⟨"VertexPosition", -1⟩], by decide⟩

def mixedMesh : Mesh :=
  ⟨some mixedBuffer, 3, [ownAttribute mixedBuffer 0 ⟨"Offset", 0⟩,
    ownAttribute mixedBuffer 1 ⟨"VertexPosition", -1⟩]⟩

/-- Both attributes get the location 0. -/
theorem mixedMesh_ambiguous :
    meshes.Reachable (some mixedMesh) ∧ ¬ LocationsDistinct mixedMesh.attachedAttributes := by
  constructor
  · have hstep : meshStep none (.ofCount 3 mixedBuffer true) = some (some mixedMesh) := rfl
    exact .step (.init rfl) hstep
  · decide +kernel

end Lhatove.Graphics
