import Lhatove.Graphics.ShaderSend

/-!
# The data that a send leaves

- `putAll`: the data after stores;
- `gather`: what is stored of the elements, up to the first that is of a wrong kind;
- `exists_changed`: there are data that are not the same after it.
-/

namespace Lhatove.Graphics.ShaderSend

open Program List

/-! ## Data after stores -/

def putAll (stores : Stores) (data : List UniformWord) : List UniformWord :=
  stores.foldl (fun data p => data.set p.1 p.2) data

@[simp] theorem putAll_nil (data : List UniformWord) : putAll [] data = data := rfl

@[simp] theorem putAll_cons (p : Nat × UniformWord) (stores : Stores) (data : List UniformWord) :
    putAll (p :: stores) data = putAll stores (data.set p.1 p.2) := rfl

theorem putAll_append (stores more : Stores) (data : List UniformWord) :
    putAll (stores ++ more) data = putAll more (putAll stores data) := foldl_append ..

@[simp] theorem putAll_length (stores : Stores) (data : List UniformWord) :
    (putAll stores data).length = data.length := by
  induction stores generalizing data with
  | nil => rfl
  | cons p rest ih => rw [putAll_cons, ih, length_set]

theorem putAll_congr {data data' : List UniformWord} (hlength : data.length = data'.length)
    {k : Nat} (stores : Stores) (h : data[k]? = data'[k]?) :
    (putAll stores data)[k]? = (putAll stores data')[k]? := by
  induction stores generalizing data data' with
  | nil => exact h
  | cons p rest ih =>
    refine ih (by rw [length_set, length_set, hlength]) ?_
    rw [getElem?_set, getElem?_set, hlength]
    split_ifs <;> first | rfl | exact h

theorem putAll_stored {data data' : List UniformWord} (hlength : data.length = data'.length)
    {k : Nat} {word : UniformWord} {stores : Stores} (h : (k, word) ∈ stores) :
    (putAll stores data)[k]? = (putAll stores data')[k]? := by
  induction stores generalizing data data' with
  | nil => exact absurd h not_mem_nil
  | cons p rest ih =>
    have hset : (data.set p.1 p.2).length = (data'.set p.1 p.2).length := by
      rw [length_set, length_set, hlength]
    rcases mem_cons.mp h with rfl | h
    · refine putAll_congr hset rest ?_
      rw [getElem?_set, getElem?_set, if_pos rfl, if_pos rfl, hlength]
    · exact ih hset h

theorem exists_changed {f : List UniformWord → List UniformWord} {size : Nat} (hsize : 0 < size)
    (h : ∀ data data' : List UniformWord, data.length = size → data'.length = size →
      (f data)[0]? = (f data')[0]?) :
    ∃ data : List UniformWord, data.length = size ∧ f data ≠ data := by
  by_contra hall
  have hsame : ∀ data : List UniformWord, data.length = size → f data = data := fun data hd =>
    by_contra fun hne => hall ⟨data, hd, hne⟩
  have hfirst := h (replicate size 0) (replicate size 1) length_replicate
    length_replicate
  rw [hsame _ length_replicate, hsame _ length_replicate, getElem?_replicate,
    getElem?_replicate, if_pos hsize, if_pos hsize] at hfirst
  exact absurd (Option.some.inj hfirst) (by decide)

/-! ## Stores -/

namespace Shader

variable {info : TypedUniform} {s : Shader} {data : List UniformWord}

theorem withData_same (h : s.data info.name = some data) : s.withData info.name data = s := by
  have hdata : (fun n => if n = info.name then some data else s.data n) = s.data := by
    funext n
    split_ifs with hn
    · rw [hn, h]
    · rfl
  rw [withData, hdata]

@[simp] theorem withData_data (s : Shader) (name : String) (data : List UniformWord) :
    (s.withData name data).data name = some data := if_pos rfl

@[simp] theorem withData_withData (s : Shader) (name : String) (data data' : List UniformWord) :
    (s.withData name data).withData name data' = s.withData name data' := by
  rw [withData, withData, withData]
  congr 1
  funext n
  by_cases hn : n = name
  · rw [if_pos hn, if_pos hn]
  · rw [if_neg hn, if_neg hn]
    exact if_neg hn

theorem store_some (h : s.data info.name = some data) {k : Nat} (hk : k < data.length)
    (word : UniformWord) :
    store info k word s = .ok () (s.withData info.name (data.set k word)) := by
  rw [store, h]
  exact if_pos hk

theorem store_none (h : s.data info.name = none) (k : Nat) (word : UniformWord) :
    store info k word s = .error .undefined s := by
  rw [store, h]

theorem load_some (h : s.data info.name = some data) {k : Nat} (hk : k < data.length) :
    load info k s = .ok data[k] s := by
  rw [load, h]
  dsimp only
  rw [getElem?_eq_getElem hk]

theorem load_none (h : s.data info.name = none) (k : Nat) :
    load info k s = .error .undefined s := by
  rw [load, h]

theorem storeAll_some (h : s.data info.name = some data) {stores : Stores}
    (hin : ∀ p ∈ stores, p.1 < data.length) :
    storeAll info stores s = .ok () (s.withData info.name (putAll stores data)) := by
  induction stores generalizing s data with
  | nil =>
    rw [putAll_nil, withData_same h]
    rfl
  | cons p rest ih =>
    rw [storeAll, bind_ok (store_some h (hin p mem_cons_self) p.2)]
    rw [ih (withData_data ..) (fun q hq => by
      rw [length_set]
      exact hin q (mem_cons_of_mem _ hq)), withData_withData, putAll_cons]

theorem storeAll_none (h : s.data info.name = none) {stores : Stores} (hsome : stores ≠ []) :
    storeAll info stores s = .error .undefined s := by
  cases stores with
  | nil => exact absurd rfl hsome
  | cons p rest => rw [storeAll, bind_error (store_none h p.1 p.2)]

/-- What the elements store before one of them raises, and what it raises. -/
def gather (element : Nat → Except String Stores) : List Nat → Stores × Option String
  | [] => ([], none)
  | i :: rest =>
    match element i with
    | .error message => ([], some message)
    | .ok stores => (stores ++ (gather element rest).1, (gather element rest).2)

section Gather

variable {element : Nat → Except String Stores}

variable {i : Nat} {rest : List Nat} {message : String}

theorem gather_error
    (h : element i = .error message) : gather element (i :: rest) = ([], some message) := by
  rw [gather, h]

theorem gather_ok {stores : Stores} (h : element i = .ok stores) :
    gather element (i :: rest) = (stores ++ (gather element rest).1, (gather element rest).2) := by
  rw [gather, h]

theorem sendElements_some (h : s.data info.name = some data) {is : List Nat}
    (hin : ∀ i ∈ is, ∀ stores, element i = .ok stores → ∀ p ∈ stores, p.1 < data.length) :
    sendElements info element is s =
      match (gather element is).2 with
      | none => .ok () (s.withData info.name (putAll (gather element is).1 data))
      | some message =>
        .error (.raised message) (s.withData info.name (putAll (gather element is).1 data)) := by
  induction is generalizing s data with
  | nil =>
    rw [gather]
    rw [putAll_nil, withData_same h]
    rfl
  | cons i rest ih =>
    rw [sendElements]
    cases hi : element i with
    | error message =>
      rw [gather_error hi]
      rw [putAll_nil, withData_same h]
      rfl
    | ok stores =>
      have hstores := hin i mem_cons_self stores hi
      rw [gather_ok hi]
      dsimp only
      rw [bind_ok (storeAll_some h hstores), ih (withData_data ..) (fun j hj st hst p hp => by
        rw [putAll_length]
        exact hin j (mem_cons_of_mem _ hj) st hst p hp), putAll_append, withData_withData]

/-- Nothing is raised if and only if no element is of a wrong kind. -/
theorem gather_none_iff {is : List Nat} :
    (gather element is).2 = none ↔ ∀ i ∈ is, ∃ stores, element i = .ok stores := by
  induction is with
  | nil => exact iff_of_true rfl fun i hi => absurd hi not_mem_nil
  | cons i rest ih =>
    rw [forall_mem_cons]
    cases hi : element i with
    | error message =>
      rw [gather_error hi]
      constructor
      · intro h
        cases h
      · rintro ⟨⟨stores, h⟩, -⟩
        cases h
    | ok stores =>
      rw [gather_ok hi, ih]
      exact ⟨fun h => ⟨⟨stores, rfl⟩, h⟩, fun h => h.2⟩

theorem sendElements_none (h : s.data info.name = none) {stores : Stores}
    (hi : element i = .ok stores) (hsome : stores ≠ []) :
    sendElements info element (i :: rest) s = .error .undefined s := by
  rw [sendElements, hi]
  exact bind_error (storeAll_none h hsome)

theorem sendElements_error (hi : element i = .error message) :
    sendElements info element (i :: rest) s = .error (.raised message) s := by
  rw [sendElements, hi]
  rfl

end Gather

/-! ## Colours that are made linear -/

section Linear

variable {Number : Type} (host : Host Number)

def linearAll (ks : List Nat) (data : List UniformWord) : List UniformWord :=
  ks.foldl (fun data k => data.set k (host.gammaToLinear (data.getD k 0))) data

@[simp] theorem linearAll_cons (k : Nat) (ks : List Nat) (data : List UniformWord) :
    linearAll host (k :: ks) data =
      linearAll host ks (data.set k (host.gammaToLinear (data.getD k 0))) := rfl

@[simp] theorem linearAll_length (ks : List Nat) (data : List UniformWord) :
    (linearAll host ks data).length = data.length := by
  induction ks generalizing data with
  | nil => rfl
  | cons k rest ih => rw [linearAll_cons, ih, length_set]

theorem linearAll_congr {data data' : List UniformWord} (hlength : data.length = data'.length)
    {j : Nat} (ks : List Nat) (h : data[j]? = data'[j]?) :
    (linearAll host ks data)[j]? = (linearAll host ks data')[j]? := by
  induction ks generalizing data data' with
  | nil => exact h
  | cons k rest ih =>
    refine ih (by rw [length_set, length_set, hlength]) ?_
    rw [getElem?_set, getElem?_set, hlength]
    by_cases hk : k = j
    · rw [if_pos hk, if_pos hk, hk, getD_eq_getElem?_getD, getD_eq_getElem?_getD, h]
    · rw [if_neg hk, if_neg hk, h]

theorem linearize_some (h : s.data info.name = some data) {ks : List Nat}
    (hin : ∀ k ∈ ks, k < data.length) :
    linearize host info ks s = .ok () (s.withData info.name (linearAll host ks data)) := by
  induction ks generalizing s data with
  | nil =>
    rw [show linearAll host [] data = data from rfl, withData_same h]
    rfl
  | cons k rest ih =>
    have hk := hin k mem_cons_self
    rw [linearize, bind_ok (load_some h hk), bind_ok (store_some h hk _),
      ih (withData_data ..) fun j hj => ?_, withData_withData, linearAll_cons,
      getD_eq_getElem?_getD, getElem?_eq_getElem hk, Option.getD_some]
    rw [length_set]
    exact hin j (mem_cons_of_mem _ hj)

end Linear

/-! ## Updates -/

theorem mapM_load (h : s.data info.name = some data) {ks : List Nat}
    (hin : ∀ k ∈ ks, k < data.length) : ∃ words, ks.mapM (load info) s = .ok words s := by
  induction ks with
  | nil => exact ⟨[], rfl⟩
  | cons k rest ih =>
    obtain ⟨words, hrest⟩ := ih fun j hj => hin j (mem_cons_of_mem _ hj)
    have hk := hin k mem_cons_self
    refine ⟨data[k] :: words, ?_⟩
    rw [mapM_cons, bind_ok (load_some h hk), bind_ok hrest]
    rfl

section Update

variable {Number : Type} {host : Host Number}

theorem flush_ok (hflush : host.flushBatchedDraws = .ok ()) : flush host s = .ok () s := by
  rw [flush, hflush]
  rfl

theorem flush_error {message : String} (hflush : host.flushBatchedDraws = .error message) :
    flush host s = .error (.raised message) s := by
  rw [flush, hflush]
  rfl

theorem updateUniform_pending (h : s.isCurrent = false) (count : Nat) :
    updateUniform host info count s = .ok ()
      { s with pendingUniformUpdates := s.pendingUniformUpdates ++ [(info.name, count)] } := by
  show (if s.isCurrent = false then _ else _ : SendM Unit) s = _
  rw [if_pos h]
  rfl

theorem updateUniform_failed (h : s.isCurrent = true) {message : String}
    (hflush : host.flushBatchedDraws = .error message) (count : Nat) :
    updateUniform host info count s = .error (.raised message) s := by
  show (if s.isCurrent = false then _ else _ : SendM Unit) s = _
  rw [if_neg (ne_false_of_eq_true h)]
  exact bind_error (flush_error hflush)

theorem updateUniform_current (h : s.isCurrent = true) (hdata : s.data info.name = some data)
    (hflush : host.flushBatchedDraws = .ok ()) {count : Nat}
    (hcount : count * info.elementSize ≤ data.length) :
    ∃ words, updateUniform host info count s = .ok () { s with
      glUniforms := fun name =>
        if name = info.name then words ++ (s.glUniforms name).drop words.length
        else s.glUniforms name } := by
  obtain ⟨words, hwords⟩ := mapM_load hdata
    (fun k (hk : k ∈ List.range (count * info.elementSize)) => by
      have hk := mem_range.mp hk
      omega)
  refine ⟨words, ?_⟩
  show (if s.isCurrent = false then _ else _ : SendM Unit) s = _
  rw [if_neg (ne_false_of_eq_true h)]
  rw [bind_ok (flush_ok hflush), bind_ok hwords]
  rfl

end Update

end Shader

end Lhatove.Graphics.ShaderSend
