import Lhatove.Joystick.JoystickModule

/-!
# The joystick registry in every run

The invariant of `JoystickModule` (`Inv`): what SDL counts as open is what the
listed sticks hold, and no two open handles are of one device. Each part of
`addJoystick` (make or reuse a stick, close it, open it, register or drop it)
keeps it, and so does every event.

- `registry_consistent`: the lists are consistent in every run, and a stick is
  reused only for a device of its GUID while it is disconnected.
-/

namespace Lhatove.Joystick

open Function List

/-- How many times the stick holds the handle `a` open. -/
def Stick.holds (s : Stick) (a : Handle) : Nat :=
  (if s.joyhandle = some a then 1 else 0) + (if s.controller = some a then 1 else 0)

theorem sum_holds_change {l : List StickRef} {stick stick' : StickRef → Stick} {p : StickRef}
    (a : Handle) (hnodup : l.Nodup) (hp : p ∈ l) (hrest : ∀ q, q ≠ p → stick' q = stick q) :
    (l.map fun q => (stick' q).holds a).sum + (stick p).holds a =
      (l.map fun q => (stick q).holds a).sum + (stick' p).holds a := by
  have herase : ((l.erase p).map fun q => (stick' q).holds a) =
      (l.erase p).map fun q => (stick q).holds a := by
    apply map_congr_left
    intro q hq
    have hne : q ≠ p := by
      rintro rfl
      exact hnodup.not_mem_erase hq
    rw [hrest q hne]
  have hold := sum_map_erase (fun q => (stick q).holds a) hp
  have hnew := sum_map_erase (fun q => (stick' q).holds a) hp
  rw [herase] at hnew
  omega

@[simp] theorem Stick.closed_holds (s : Stick) (a : Handle) : s.closed.holds a = 0 := by
  simp [Stick.closed, Stick.holds]

theorem Stick.opened_holds (guid : DeviceID → String) (d : DeviceID) (a : Handle)
    (gamepad : Bool) (s : Stick) (b : Handle) :
    (s.opened guid d a gamepad).holds b =
      if a = b then (if gamepad then 2 else 1) else 0 := by
  unfold Stick.opened Stick.holds
  cases gamepad <;> by_cases hab : a = b <;> simp [hab]

@[simp] theorem SDL.closeHandle_device (sdl : SDL) (h : Option Handle) :
    (sdl.closeHandle h).device = sdl.device := by
  cases h <;> rfl

@[simp] theorem SDL.closeHandle_attached (sdl : SDL) (h : Option Handle) :
    (sdl.closeHandle h).attached = sdl.attached := by
  cases h <;> rfl

theorem SDL.closeHandle_opens (sdl : SDL) (h : Option Handle) (b : Handle) :
    (sdl.closeHandle h).opens b = sdl.opens b - (if h = some b then 1 else 0) := by
  cases h with
  | none => rfl
  | some a =>
    by_cases hab : b = a
    · subst hab
      simp [SDL.closeHandle]
    · have hne : a ≠ b := fun h => hab h.symm
      simp [SDL.closeHandle, update_of_ne hab, hne]

namespace JoystickModule

/-- What every event preserves. The handles that SDL counts as open are those that the
sticks hold, and no two of them are of one device. -/
structure Inv (m : JoystickModule) : Prop where
  joysticks_nodup : m.joysticks.Nodup
  ids : m.joysticks.map (fun p => (m.stick p).id) = List.range m.joysticks.length
  active_nodup : m.activeSticks.Nodup
  active_listed : ∀ p ∈ m.activeSticks, p ∈ m.joysticks
  active_open : ∀ p ∈ m.activeSticks, ∃ a, (m.stick p).joyhandle = some a
  active_handles : ∀ p ∈ m.activeSticks, ∀ q ∈ m.activeSticks,
    (m.stick p).joyhandle = (m.stick q).joyhandle → p = q
  opens : ∀ a, m.sdl.opens a = (m.joysticks.map fun p => (m.stick p).holds a).sum
  devices : ∀ a b, 0 < m.sdl.opens a → 0 < m.sdl.opens b →
    m.sdl.device a = m.sdl.device b → a = b
  instances : ∀ p ∈ m.joysticks, ∀ a, (m.stick p).joyhandle = some a →
    (m.stick p).instanceid = m.sdl.device a

variable {m : JoystickModule} {p : StickRef}

theorem Inv.open_of_handle (hinv : m.Inv) {a : Handle} (hp : p ∈ m.joysticks)
    (ha : (m.stick p).joyhandle = some a) : 0 < m.sdl.opens a := by
  rw [hinv.opens a]
  have hle : (m.stick p).holds a ≤ (m.joysticks.map fun p => (m.stick p).holds a).sum :=
    single_le_sum (fun _ _ => Nat.zero_le _) _
      (mem_map_of_mem hp)
  have hholds : 0 < (m.stick p).holds a := by
    simp [Stick.holds, ha]
  omega

/-! ### Closing a stick -/

@[simp] theorem close_stick_self (m : JoystickModule) (p : StickRef) :
    (m.close p).stick p = (m.stick p).closed :=
  update_self ..

variable {q : StickRef}

theorem close_stick_of_ne (m : JoystickModule) (h : q ≠ p) : (m.close p).stick q = m.stick q :=
  update_of_ne h ..

@[simp] theorem close_activeSticks (m : JoystickModule) (p : StickRef) :
    (m.close p).activeSticks = m.activeSticks := rfl

@[simp] theorem close_joysticks (m : JoystickModule) (p : StickRef) :
    (m.close p).joysticks = m.joysticks := rfl

@[simp] theorem close_device (m : JoystickModule) (p : StickRef) :
    (m.close p).sdl.device = m.sdl.device := by
  simp [close]

@[simp] theorem close_attached (m : JoystickModule) (p : StickRef) :
    (m.close p).sdl.attached = m.sdl.attached := by
  simp [close]

theorem close_opens (m : JoystickModule) (p : StickRef) (a : Handle) :
    (m.close p).sdl.opens a = m.sdl.opens a - (m.stick p).holds a := by
  show ((m.sdl.closeHandle _).closeHandle _).opens a = _
  rw [SDL.closeHandle_opens, SDL.closeHandle_opens, Stick.holds]
  omega

theorem close_id (m : JoystickModule) (p q : StickRef) :
    ((m.close p).stick q).id = (m.stick q).id := by
  by_cases h : q = p
  · subst h
    rw [close_stick_self]
    rfl
  · rw [close_stick_of_ne m h]

theorem Inv.close (hinv : m.Inv) (hp : p ∈ m.joysticks)
    (hactive : p ∉ m.activeSticks) : (m.close p).Inv := by
  have hne : ∀ q ∈ m.activeSticks, q ≠ p := by
    rintro q hq rfl
    exact hactive hq
  have hopens : ∀ a, (m.close p).sdl.opens a =
      (m.joysticks.map fun q => ((m.close p).stick q).holds a).sum := by
    intro a
    have hsum : (m.joysticks.map fun q => ((m.close p).stick q).holds a).sum +
        (m.stick p).holds a = m.sdl.opens a + ((m.close p).stick p).holds a := by
      rw [hinv.opens a]
      exact sum_holds_change a hinv.joysticks_nodup hp
        (fun q hq => close_stick_of_ne m hq)
    rw [close_stick_self, Stick.closed_holds] at hsum
    rw [close_opens]
    omega
  have hless : ∀ a, 0 < (m.close p).sdl.opens a → 0 < m.sdl.opens a := by
    intro a ha
    rw [close_opens] at ha
    omega
  constructor
  · exact hinv.joysticks_nodup
  · simpa only [close_joysticks, close_id] using hinv.ids
  · exact hinv.active_nodup
  · exact hinv.active_listed
  · intro q hq
    rw [close_stick_of_ne m (hne q hq)]
    exact hinv.active_open q hq
  · intro q hq r hr heq
    rw [close_stick_of_ne m (hne q hq), close_stick_of_ne m (hne r hr)] at heq
    exact hinv.active_handles q hq r hr heq
  · exact hopens
  · intro a b ha hb heq
    rw [close_device] at heq
    exact hinv.devices a b (hless a ha) (hless b hb) heq
  · intro q hq a ha
    rw [close_device]
    by_cases h : q = p
    · subst h
      rw [close_stick_self] at ha
      cases ha
    · rw [close_stick_of_ne m h] at ha ⊢
      exact hinv.instances q hq a ha

/-! ### Taking a stick from the active list -/

theorem Inv.erase (hinv : m.Inv) (p : StickRef) :
    ({ m with activeSticks := m.activeSticks.erase p } : JoystickModule).Inv where
  joysticks_nodup := hinv.joysticks_nodup
  ids := hinv.ids
  active_nodup := hinv.active_nodup.erase p
  active_listed q hq := hinv.active_listed q (mem_of_mem_erase hq)
  active_open q hq := hinv.active_open q (mem_of_mem_erase hq)
  active_handles q hq r hr :=
    hinv.active_handles q (mem_of_mem_erase hq) r (mem_of_mem_erase hr)
  opens := hinv.opens
  devices := hinv.devices
  instances := hinv.instances

theorem removeJoystick_of_mem (h : p ∈ m.activeSticks) :
    m.removeJoystick (some p) =
      ({ m with activeSticks := m.activeSticks.erase p } : JoystickModule).close p := by
  show (if p ∈ m.activeSticks then _ else m) = _
  rw [if_pos h]
  rfl

theorem removeJoystick_of_not_mem (h : p ∉ m.activeSticks) : m.removeJoystick (some p) = m := by
  show (if p ∈ m.activeSticks then _ else m) = _
  rw [if_neg h]

theorem Inv.removeJoystick (hinv : m.Inv) (p : Option StickRef) : (m.removeJoystick p).Inv := by
  cases p with
  | none => exact hinv
  | some p =>
    by_cases h : p ∈ m.activeSticks
    · rw [removeJoystick_of_mem h]
      exact (hinv.erase p).close (hinv.active_listed p h) hinv.active_nodup.not_mem_erase
    · rw [removeJoystick_of_not_mem h]
      exact hinv

/-! ### Making a stick -/

variable {fresh : StickRef}

theorem create_stick_of_ne (m : JoystickModule) (h : q ≠ fresh) :
    (m.create fresh).stick q = m.stick q :=
  update_of_ne h ..

theorem create_stick_self (m : JoystickModule) (fresh : StickRef) :
    (m.create fresh).stick fresh = { id := m.joysticks.length } :=
  update_self ..

theorem Inv.create (hinv : m.Inv) (hfresh : fresh ∉ m.joysticks) : (m.create fresh).Inv := by
  have hne : ∀ q ∈ m.joysticks, q ≠ fresh := by
    rintro q hq rfl
    exact hfresh hq
  have hsame : ∀ q ∈ m.joysticks, (m.create fresh).stick q = m.stick q :=
    fun q hq => create_stick_of_ne m (hne q hq)
  have hactive : ∀ q ∈ m.activeSticks, (m.create fresh).stick q = m.stick q :=
    fun q hq => hsame q (hinv.active_listed q hq)
  constructor
  · show (m.joysticks ++ [fresh]).Nodup
    rw [nodup_append]
    refine ⟨hinv.joysticks_nodup, nodup_singleton _, ?_⟩
    intro q hq r hr
    rw [mem_singleton] at hr
    rw [hr]
    exact hne q hq
  · show (m.joysticks ++ [fresh]).map _ = .range (m.joysticks ++ [fresh]).length
    rw [map_append, length_append, length_singleton, range_succ,
      ← hinv.ids]
    congr 1
    · exact map_congr_left fun q hq => by rw [hsame q hq]
    · simp [create_stick_self]
  · exact hinv.active_nodup
  · intro q hq
    exact mem_append_left _ (hinv.active_listed q hq)
  · intro q hq
    rw [hactive q hq]
    exact hinv.active_open q hq
  · intro q hq r hr heq
    rw [hactive q hq, hactive r hr] at heq
    exact hinv.active_handles q hq r hr heq
  · intro a
    show m.sdl.opens a = ((m.joysticks ++ [fresh]).map _).sum
    have hnew : ((m.create fresh).stick fresh).holds a = 0 := by
      rw [create_stick_self]
      rfl
    rw [map_append, sum_append, map_singleton, sum_singleton, hnew,
      hinv.opens a, Nat.add_zero]
    congr 1
    exact map_congr_left fun q hq => by rw [hsame q hq]
  · exact hinv.devices
  · intro q hq a ha
    rcases mem_append.mp hq with hq | hq
    · rw [hsame q hq] at ha ⊢
      exact hinv.instances q hq a ha
    · rw [mem_singleton.mp hq, create_stick_self] at ha
      cases ha

/-! ### Opening a closed stick -/

theorem opening_stick_of_ne (guid : DeviceID → String) (m : JoystickModule) (d : DeviceID)
    (answer : Option (Handle × Bool)) (h : q ≠ p) :
    (m.opening guid p d answer).stick q = m.stick q := by
  rcases answer with _ | ⟨a, gamepad⟩
  · rfl
  · exact update_of_ne h ..

@[simp] theorem opening_activeSticks (guid : DeviceID → String) (m : JoystickModule)
    (p : StickRef) (d : DeviceID) (answer : Option (Handle × Bool)) :
    (m.opening guid p d answer).activeSticks = m.activeSticks := by
  rcases answer with _ | ⟨a, gamepad⟩ <;> rfl

@[simp] theorem opening_joysticks (guid : DeviceID → String) (m : JoystickModule)
    (p : StickRef) (d : DeviceID) (answer : Option (Handle × Bool)) :
    (m.opening guid p d answer).joysticks = m.joysticks := by
  rcases answer with _ | ⟨a, gamepad⟩ <;> rfl

@[simp] theorem opening_attached (guid : DeviceID → String) (m : JoystickModule)
    (p : StickRef) (d : DeviceID) (answer : Option (Handle × Bool)) :
    (m.opening guid p d answer).sdl.attached = m.sdl.attached := by
  rcases answer with _ | ⟨a, gamepad⟩
  · rfl
  · cases gamepad <;> rfl

theorem opening_device (guid : DeviceID → String) (m : JoystickModule) (p : StickRef)
    (d : DeviceID) (a : Handle) (gamepad : Bool) :
    (m.opening guid p d (some (a, gamepad))).sdl.device = update m.sdl.device a d := by
  cases gamepad
  · rfl
  · exact update_idem ..

theorem opening_opens (guid : DeviceID → String) (m : JoystickModule) (p : StickRef)
    (d : DeviceID) (a : Handle) (gamepad : Bool) (b : Handle) :
    (m.opening guid p d (some (a, gamepad))).sdl.opens b =
      m.sdl.opens b + if a = b then (if gamepad then 2 else 1) else 0 := by
  by_cases hab : a = b
  · subst hab
    cases gamepad <;> simp [opening, SDL.openHandle]
  · have hba : b ≠ a := fun h => hab h.symm
    cases gamepad <;> simp [opening, SDL.openHandle, hab, update_of_ne hba]

variable {d : DeviceID} {answer : Option (Handle × Bool)}

theorem Inv.opening (hinv : m.Inv) (guid : DeviceID → String) (hp : p ∈ m.joysticks)
    (hactive : p ∉ m.activeSticks) (hclosed : ∀ a, (m.stick p).holds a = 0)
    (hanswer : m.sdl.Answers d (answer.map Prod.fst)) : (m.opening guid p d answer).Inv := by
  rcases answer with _ | ⟨a, gamepad⟩
  · exact hinv
  set m' := m.opening guid p d (some (a, gamepad)) with hm'
  have hself : m'.stick p = (m.stick p).opened guid d a gamepad := update_self ..
  have hrest : ∀ q, q ≠ p → m'.stick q = m.stick q :=
    fun q hq => opening_stick_of_ne guid m d _ hq
  have hne : ∀ q ∈ m.activeSticks, q ≠ p := by
    rintro q hq rfl
    exact hactive hq
  have hdevice : m'.sdl.device = update m.sdl.device a d :=
    opening_device guid m p d a gamepad
  -- a handle that was open is the device's, or is not the answer
  have hkept : ∀ b, 0 < m.sdl.opens b → m'.sdl.device b = m.sdl.device b := by
    intro b hb
    rw [hdevice]
    by_cases hba : b = a
    · subst hba
      rw [update_self]
      rcases hanswer with ⟨-, hd⟩ | ⟨hzero, -⟩
      · exact hd.symm
      · exact absurd hzero (Nat.pos_iff_ne_zero.mp hb)
    · rw [update_of_ne hba]
  have hopen : ∀ b, 0 < m'.sdl.opens b → b = a ∨ 0 < m.sdl.opens b := by
    intro b hb
    by_cases hba : b = a
    · exact .inl hba
    · right
      have hab : a ≠ b := fun h => hba h.symm
      rw [hm', opening_opens, if_neg hab] at hb
      exact hb
  have hanswered : ∀ b, 0 < m.sdl.opens b → m.sdl.device b = d → b = a := by
    intro b hb hd
    rcases hanswer with ⟨ha, had⟩ | ⟨-, hnone⟩
    · exact hinv.devices b a hb ha (hd.trans had.symm)
    · exact absurd hd (hnone b hb)
  constructor
  · exact hinv.joysticks_nodup
  · show m.joysticks.map (fun q => (m'.stick q).id) = _
    rw [map_congr_left]
    · exact hinv.ids
    · intro q _
      by_cases h : q = p
      · rw [h, hself]
        rfl
      · rw [hrest q h]
  · exact hinv.active_nodup
  · exact hinv.active_listed
  · intro q hq
    rw [hrest q (hne q hq)]
    exact hinv.active_open q hq
  · intro q hq r hr heq
    rw [hrest q (hne q hq), hrest r (hne r hr)] at heq
    exact hinv.active_handles q hq r hr heq
  · intro b
    have hsum : (m.joysticks.map fun q => (m'.stick q).holds b).sum + (m.stick p).holds b =
        m.sdl.opens b + (m'.stick p).holds b := by
      rw [hinv.opens b]
      exact sum_holds_change b hinv.joysticks_nodup hp hrest
    rw [hself, hclosed b, Nat.add_zero, Stick.opened_holds] at hsum
    rw [hm', opening_opens]
    exact hsum.symm
  · intro b c hb hc heq
    rcases hopen b hb with hba | hb'
    · rcases hopen c hc with hca | hc'
      · rw [hba, hca]
      · rw [hba, hkept c hc', hdevice, update_self] at heq
        exact hba.trans (hanswered c hc' heq.symm).symm
    · rcases hopen c hc with hca | hc'
      · rw [hca, hkept b hb', hdevice, update_self] at heq
        exact (hanswered b hb' heq).trans hca.symm
      · rw [hkept b hb', hkept c hc'] at heq
        exact hinv.devices b c hb' hc' heq
  · intro q hq b hb
    by_cases h : q = p
    · subst h
      rw [hself] at hb ⊢
      cases hb
      rw [hdevice, update_self]
      rfl
    · rw [hrest q h] at hb ⊢
      rw [hkept b (hinv.open_of_handle hq hb)]
      exact hinv.instances q hq b hb

/-! ### Registering an open stick -/

theorem Inv.dropLast (hinv : m.Inv) {l : List StickRef} (hl : m.joysticks = l ++ [p])
    (hactive : p ∉ m.activeSticks) (hclosed : ∀ a, (m.stick p).holds a = 0) :
    ({ m with joysticks := m.joysticks.filter (· ≠ p) } : JoystickModule).Inv := by
  have hnodup := hinv.joysticks_nodup
  rw [hl, nodup_append] at hnodup
  have hnew : ∀ q ∈ l, q ≠ p := fun q hq => hnodup.2.2 q hq p (mem_singleton_self p)
  have hfilter : m.joysticks.filter (· ≠ p) = l := by
    rw [hl, filter_append, filter_eq_self.mpr fun q hq => by simpa using hnew q hq]
    simp
  rw [hfilter]
  have hids := hinv.ids
  rw [hl, map_append, length_append, length_singleton, range_succ] at hids
  constructor
  · exact hnodup.1
  · exact (append_inj' hids rfl).1
  · exact hinv.active_nodup
  · intro q hq
    have hmem := hinv.active_listed q hq
    rw [hl, mem_append, mem_singleton] at hmem
    rcases hmem with hmem | rfl
    · exact hmem
    · exact absurd hq hactive
  · exact hinv.active_open
  · exact hinv.active_handles
  · intro a
    have hsum := hinv.opens a
    rw [hl, map_append, sum_append, map_singleton, sum_singleton,
      hclosed a, Nat.add_zero] at hsum
    exact hsum
  · exact hinv.devices
  · intro q hq a ha
    refine hinv.instances q ?_ a ha
    rw [hl]
    exact mem_append_left _ hq

theorem Inv.activate (hinv : m.Inv) (hp : p ∈ m.joysticks) (hactive : p ∉ m.activeSticks)
    (hopen : ∃ a, (m.stick p).joyhandle = some a)
    (hother : ∀ q ∈ m.activeSticks, (m.stick p).joyhandle ≠ (m.stick q).joyhandle) :
    ({ m with activeSticks := m.activeSticks ++ [p] } : JoystickModule).Inv := by
  have hmem : ∀ q, q ∈ m.activeSticks ++ [p] → q ∈ m.activeSticks ∨ q = p := by
    intro q hq
    rwa [mem_append, mem_singleton] at hq
  constructor
  · exact hinv.joysticks_nodup
  · exact hinv.ids
  · rw [nodup_append]
    refine ⟨hinv.active_nodup, nodup_singleton _, ?_⟩
    rintro q hq r hr rfl
    rw [mem_singleton] at hr
    exact hactive (hr ▸ hq)
  · intro q hq
    rcases hmem q hq with hq | rfl
    · exact hinv.active_listed q hq
    · exact hp
  · intro q hq
    rcases hmem q hq with hq | rfl
    · exact hinv.active_open q hq
    · exact hopen
  · intro q hq r hr heq
    rcases hmem q hq with hold | hqp
    · rcases hmem r hr with hold' | hrp
      · exact hinv.active_handles q hold r hold' heq
      · rw [hrp] at heq
        exact absurd heq.symm (hother q hold)
    · rcases hmem r hr with hold' | hrp
      · rw [hqp] at heq
        exact absurd heq (hother r hold')
      · rw [hqp, hrp]
  · exact hinv.opens
  · exact hinv.devices
  · exact hinv.instances

/-! ### Adding a stick -/

/-- The stick `q` is in `m'` what it is in `m`. -/
def Untouched (m m' : JoystickModule) (q : StickRef) : Prop :=
  m'.stick q = m.stick q ∧ (q ∈ m'.activeSticks ↔ q ∈ m.activeSticks)

theorem Untouched.refl (m : JoystickModule) (q : StickRef) : Untouched m m q :=
  ⟨rfl, .rfl⟩

theorem Untouched.trans {m' m'' : JoystickModule} (h : Untouched m m' q)
    (h' : Untouched m' m'' q) : Untouched m m'' q :=
  ⟨h'.1.trans h.1, h'.2.trans h.2⟩

theorem close_untouched (m : JoystickModule) (h : q ≠ p) : Untouched m (m.close p) q :=
  ⟨close_stick_of_ne m h, .rfl⟩

theorem opening_untouched (guid : DeviceID → String) (m : JoystickModule) (d : DeviceID)
    (answer : Option (Handle × Bool)) (h : q ≠ p) :
    Untouched m (m.opening guid p d answer) q := by
  constructor
  · exact opening_stick_of_ne guid m d answer h
  · rw [opening_activeSticks]

theorem removeJoystick_untouched (m : JoystickModule) (h : q ≠ p) :
    Untouched m (m.removeJoystick (some p)) q := by
  by_cases hp : p ∈ m.activeSticks
  · rw [removeJoystick_of_mem hp]
    exact ⟨close_stick_of_ne _ h, mem_erase_of_ne h⟩
  · rw [removeJoystick_of_not_mem hp]
    exact .refl m q

@[simp] theorem removeJoystick_joysticks (m : JoystickModule) (p : StickRef) :
    (m.removeJoystick (some p)).joysticks = m.joysticks := by
  by_cases hp : p ∈ m.activeSticks
  · rw [removeJoystick_of_mem hp]
    rfl
  · rw [removeJoystick_of_not_mem hp]

@[simp] theorem removeJoystick_attached (m : JoystickModule) (p : StickRef) :
    (m.removeJoystick (some p)).sdl.attached = m.sdl.attached := by
  by_cases hp : p ∈ m.activeSticks
  · rw [removeJoystick_of_mem hp, close_attached]
  · rw [removeJoystick_of_not_mem hp]

theorem not_mem_removeJoystick (hinv : m.Inv) (p : StickRef) :
    p ∉ (m.removeJoystick (some p)).activeSticks := by
  by_cases hp : p ∈ m.activeSticks
  · rw [removeJoystick_of_mem hp]
    exact hinv.active_nodup.not_mem_erase
  · rw [removeJoystick_of_not_mem hp]
    exact hp

/-- What `addJoystick` goes on with: a stick that is not active, of the list, either an
old one or the new one at its end. -/
structure Chosen (guid : DeviceID → String) (m : JoystickModule) (deviceid : Int)
    (c : StickRef × JoystickModule) : Prop where
  inv : c.2.Inv
  listed : c.1 ∈ c.2.joysticks
  inactive : c.1 ∉ c.2.activeSticks
  attached : c.2.sdl.attached = m.sdl.attached
  created : reusable guid m deviceid = none → c.1 ∉ m.joysticks ∧ ∃ l, c.2.joysticks = l ++ [c.1]
  reused : ∀ p, reusable guid m deviceid = some p → c.1 = p
  rest : ∀ q, q ≠ c.1 → Untouched m c.2 q

theorem Inv.choose (hinv : m.Inv) (guid : DeviceID → String) (deviceid : Int)
    (hfresh : fresh ∉ m.joysticks) :
    Chosen guid m deviceid (choose guid m deviceid fresh) := by
  unfold JoystickModule.choose
  cases hr : reusable guid m deviceid with
  | some p =>
    have hp : p ∈ m.joysticks := mem_of_find?_eq_some hr
    refine ⟨.removeJoystick hinv (some p), ?_, not_mem_removeJoystick hinv p,
      removeJoystick_attached m p, ?_, ?_, fun q hq => removeJoystick_untouched m hq⟩
    · rw [removeJoystick_joysticks]
      exact hp
    · intro hnone
      rw [hr] at hnone
      cases hnone
    · intro q hq
      rw [hr] at hq
      exact Option.some.inj hq
  | none =>
    have hinactive : fresh ∉ (m.create fresh).activeSticks :=
      fun h => hfresh (hinv.active_listed fresh h)
    rw [removeJoystick_of_not_mem hinactive]
    refine ⟨hinv.create hfresh, ?_, hinactive, rfl, fun _ => ⟨hfresh, m.joysticks, rfl⟩, ?_, ?_⟩
    · exact mem_append_right _ (mem_singleton_self fresh)
    · intro p hp
      rw [hr] at hp
      cases hp
    · intro q hq
      exact ⟨create_stick_of_ne m hq, .rfl⟩

theorem Inv.openStick (hinv : m.Inv) (guid : DeviceID → String) (hp : p ∈ m.joysticks)
    (hactive : p ∉ m.activeSticks) (hanswer : (m.close p).sdl.Answers d (answer.map Prod.fst)) :
    (openStick guid m p d answer).Inv := by
  refine (hinv.close hp hactive).opening guid hp hactive ?_ hanswer
  intro a
  rw [close_stick_self, Stick.closed_holds]

theorem openStick_untouched (guid : DeviceID → String) (m : JoystickModule) (d : DeviceID)
    (answer : Option (Handle × Bool)) (h : q ≠ p) :
    Untouched m (openStick guid m p d answer) q :=
  (close_untouched m h).trans (opening_untouched guid _ d answer h)

/-- A stick that an open leaves connected has the device, which is attached. -/
theorem attached_of_openStick (guid : DeviceID → String) (m : JoystickModule) (p : StickRef)
    (d : DeviceID) (answer : Option (Handle × Bool))
    (h : ((openStick guid m p d answer).stick p).isConnected
      (openStick guid m p d answer).sdl = true) : m.sdl.attached d = true := by
  unfold JoystickModule.openStick at h
  rcases answer with _ | ⟨a, gamepad⟩
  · have hclosed : ((m.close p).opening guid p d none).stick p = (m.stick p).closed :=
      close_stick_self m p
    rw [hclosed] at h
    cases h
  · have hopened : ((m.close p).opening guid p d (some (a, gamepad))).stick p =
        ((m.close p).stick p).opened guid d a gamepad := update_self ..
    rw [hopened, Stick.opened, Stick.isConnected] at h
    dsimp only at h
    rw [opening_attached, opening_device, update_self, close_attached] at h
    exact h

theorem Inv.register (hinv : m.Inv) {reused : Bool} (hp : p ∈ m.joysticks)
    (hactive : p ∉ m.activeSticks)
    (hlast : reused = false → ∃ l, m.joysticks = l ++ [p]) : (m.register p reused).2.Inv := by
  unfold JoystickModule.register
  split
  next hconn =>
    cases hfind : m.activeSticks.find?
      fun q => (m.stick p).joyhandle == (m.stick q).joyhandle with
    | some q =>
      cases reused with
      | true => exact hinv.close hp hactive
      | false =>
        obtain ⟨l, hl⟩ := hlast rfl
        refine (hinv.close hp hactive).dropLast hl hactive ?_
        intro a
        rw [close_stick_self, Stick.closed_holds]
    | none =>
      refine hinv.activate hp hactive ?_ ?_
      · cases hhandle : (m.stick p).joyhandle with
        | none =>
          rw [Stick.isConnected, hhandle] at hconn
          cases hconn
        | some a => exact ⟨a, rfl⟩
      · intro q hq heq
        have hno := find?_eq_none.mp hfind q hq
        rw [heq, beq_self_eq_true] at hno
        exact hno rfl
  · exact hinv

theorem register_untouched (m : JoystickModule) (reused : Bool) (h : q ≠ p) :
    Untouched m (m.register p reused).2 q := by
  unfold JoystickModule.register
  split
  · cases m.activeSticks.find? fun q => (m.stick p).joyhandle == (m.stick q).joyhandle with
    | some r =>
      cases reused with
      | true | false => exact close_untouched m h
    | none =>
      refine ⟨rfl, ?_⟩
      rw [mem_append, mem_singleton]
      exact ⟨fun hq => hq.resolve_right h, .inl⟩
  · exact .refl m q

theorem connected_of_register {reused : Bool} (hactive : p ∉ m.activeSticks)
    (h : p ∈ (m.register p reused).2.activeSticks) :
    (m.stick p).isConnected m.sdl = true := by
  by_contra hconn
  unfold JoystickModule.register at h
  rw [if_neg hconn] at h
  exact hactive h

/-- What `addJoystick` may do to the sticks there are: it leaves them alone, but for one
that is disconnected and has the GUID that is looked for. If that one is active
afterwards, the GUID is the device's. -/
def ReusesRightly (guid : DeviceID → String) (m : JoystickModule) (d : DeviceID)
    (m' : JoystickModule) : Prop :=
  ∀ p ∈ m.joysticks, Untouched m m' p ∨
    ((m.stick p).isConnected m.sdl = false ∧
      (m.stick p).pguid = getDeviceGUID guid m d.toNat ∧
      (p ∈ m'.activeSticks → (m.stick p).pguid = guid d))

theorem getDeviceGUID_of_attached (guid : DeviceID → String) (hd : (d.toNat : Int) ≠ 0)
    (h : m.sdl.attached d = true) :
    getDeviceGUID guid m d.toNat = guid d := by
  have hcast : BitVec.ofInt 32 (d.toNat : Int) = d := by
    rw [BitVec.ofInt_natCast, BitVec.ofNat_toNat, BitVec.setWidth_eq]
  unfold getDeviceGUID
  rw [if_neg (by omega)]
  rw [hcast, if_pos h]

theorem Inv.addJoystick (hinv : m.Inv) (guid : DeviceID → String) (hfresh : fresh ∉ m.joysticks)
    (hanswer : (asked guid m d.toNat fresh).Answers d (answer.map Prod.fst)) :
    (addJoystick guid m d.toNat fresh answer).2.Inv ∧
      ReusesRightly guid m d (addJoystick guid m d.toNat fresh answer).2 := by
  unfold JoystickModule.addJoystick
  split
  · exact ⟨hinv, fun p _ => .inl (.refl m p)⟩
  rename_i hzero
  have hcast : BitVec.ofInt 32 (d.toNat : Int) = d := by
    rw [BitVec.ofInt_natCast, BitVec.ofNat_toNat, BitVec.setWidth_eq]
  rw [hcast]
  have hchosen := hinv.choose guid d.toNat hfresh
  unfold asked at hanswer
  set c := JoystickModule.choose guid m d.toNat fresh
  set o := JoystickModule.openStick guid c.2 c.1 d answer with ho
  have hlisted : o.joysticks = c.2.joysticks := opening_joysticks ..
  have hactives : o.activeSticks = c.2.activeSticks := opening_activeSticks ..
  have hinactive : c.1 ∉ o.activeSticks := by
    rw [hactives]
    exact hchosen.inactive
  constructor
  · refine (hchosen.inv.openStick guid hchosen.listed hchosen.inactive hanswer).register
      (hlisted ▸ hchosen.listed) hinactive ?_
    intro hnew
    rw [← ho, hlisted]
    exact (hchosen.created (Option.not_isSome_iff_eq_none.mp (by simp [hnew]))).2
  · intro p hp
    by_cases hpc : p = c.1
    · right
      cases hr : reusable guid m d.toNat with
      | none => exact absurd (hpc ▸ hp) (hchosen.created hr).1
      | some q =>
        have hpq : p = q := hpc.trans (hchosen.reused q hr)
        have hfound := find?_some hr
        rw [← hpq, Bool.and_eq_true, Bool.not_eq_true', beq_iff_eq] at hfound
        refine ⟨hfound.1, hfound.2, ?_⟩
        intro hafter
        rw [hpc] at hafter
        have hconn := connected_of_register hinactive hafter
        have hattached := attached_of_openStick guid c.2 c.1 d answer hconn
        rw [hchosen.attached] at hattached
        rw [hfound.2, getDeviceGUID_of_attached guid hzero hattached]
    · left
      exact ((hchosen.rest p hpc).trans (openStick_untouched guid c.2 d answer hpc)).trans
        (register_untouched o _ hpc)

/-! ## Every run -/

theorem Inv.setAttached (hinv : m.Inv) (d : DeviceID) (b : Bool) : (m.setAttached d b).Inv :=
  ⟨hinv.joysticks_nodup, hinv.ids, hinv.active_nodup, hinv.active_listed, hinv.active_open,
    hinv.active_handles, hinv.opens, hinv.devices, hinv.instances⟩

theorem Inv.step {guid : DeviceID → String} {m' : JoystickModule} {e : Event} (hinv : m.Inv)
    (h : Step guid m e m') : m'.Inv := by
  cases h with
  | connect | disconnect => exact hinv.setAttached _ _
  | add hfresh hanswer => exact (hinv.addJoystick guid hfresh hanswer).1
  | remove => exact hinv.removeJoystick _

theorem Initial.inv (h : Initial m) : m.Inv := by
  obtain ⟨hactive, hjoysticks, hopens⟩ := h
  constructor
  · rw [hjoysticks]
    exact nodup_nil
  · rw [hjoysticks]
    rfl
  · rw [hactive]
    exact nodup_nil
  · intro p hp
    rw [hactive] at hp
    cases hp
  · intro p hp
    rw [hactive] at hp
    cases hp
  · intro p hp
    rw [hactive] at hp
    cases hp
  · intro a
    rw [hjoysticks, hopens a]
    rfl
  · intro a b ha
    rw [hopens a] at ha
    exact absurd ha (Nat.lt_irrefl 0)
  · intro p hp
    rw [hjoysticks] at hp
    cases hp

theorem inv_of_reachable (guid : DeviceID → String) (h : (system guid).Reachable m) : m.Inv :=
  System.Reachable.invariant (I := Inv) (fun _ hinit => Initial.inv hinit)
    (fun _ e _ hinv (hstep : Step guid _ e _) => hinv.step hstep) h

/-- What the lists are to be: the active sticks are pairwise distinct objects, each open,
with a handle and an instance id of its own, and each listed once; no two sticks have one
id; and an instance id finds the active stick that has it. -/
structure Consistent (m : JoystickModule) : Prop where
  objects : m.activeSticks.Nodup
  handles : ∀ p ∈ m.activeSticks, ∀ q ∈ m.activeSticks,
    (m.stick p).joyhandle = (m.stick q).joyhandle → p = q
  instances : ∀ p ∈ m.activeSticks, ∀ q ∈ m.activeSticks,
    (m.stick p).getInstanceID = (m.stick q).getInstanceID → p = q
  listed : ∀ p ∈ m.activeSticks, m.joysticks.count p = 1
  ids : (m.joysticks.map fun p => (m.stick p).id).Nodup
  found : ∀ i p, m.getJoystickFromID i = some p ↔
    p ∈ m.activeSticks ∧ (m.stick p).getInstanceID = i
  foundDevice : ∀ d : DeviceID, (m.getJoystickFromID d.toInt).isSome ↔
    ∃ p ∈ m.activeSticks, ∃ a, (m.stick p).joyhandle = some a ∧ m.sdl.device a = d

theorem Inv.instances_inj (hinv : m.Inv) (hp : p ∈ m.activeSticks) (hq : q ∈ m.activeSticks)
    (h : (m.stick p).getInstanceID = (m.stick q).getInstanceID) : p = q := by
  obtain ⟨a, ha⟩ := hinv.active_open p hp
  obtain ⟨b, hb⟩ := hinv.active_open q hq
  have hlp := hinv.active_listed p hp
  have hlq := hinv.active_listed q hq
  have hdev : m.sdl.device a = m.sdl.device b := by
    rw [← hinv.instances p hlp a ha, ← hinv.instances q hlq b hb]
    exact BitVec.eq_of_toInt_eq h
  have hab : a = b :=
    hinv.devices a b (hinv.open_of_handle hlp ha) (hinv.open_of_handle hlq hb) hdev
  apply hinv.active_handles p hp q hq
  rw [ha, hb, hab]

theorem Inv.found (hinv : m.Inv) (i : Int) (p : StickRef) :
    m.getJoystickFromID i = some p ↔
      p ∈ m.activeSticks ∧ (m.stick p).getInstanceID = i := by
  unfold getJoystickFromID
  constructor
  · intro h
    exact ⟨mem_of_find?_eq_some h, by simpa using find?_some h⟩
  · rintro ⟨hp, hi⟩
    cases hfind : m.activeSticks.find? fun q => (m.stick q).getInstanceID == i with
    | none =>
      have hno := find?_eq_none.mp hfind p hp
      exact absurd (beq_iff_eq.mpr hi) hno
    | some q =>
      have hq : (m.stick q).getInstanceID = i := by simpa using find?_some hfind
      rw [hinv.instances_inj (mem_of_find?_eq_some hfind) hp (hq.trans hi.symm)]

theorem Inv.consistent (hinv : m.Inv) : Consistent m where
  objects := hinv.active_nodup
  handles := hinv.active_handles
  instances _ hp _ hq := hinv.instances_inj hp hq
  listed p hp := count_eq_one_of_mem hinv.joysticks_nodup (hinv.active_listed p hp)
  ids := by
    rw [hinv.ids]
    exact nodup_range
  found := hinv.found
  foundDevice := by
    intro d
    rw [Option.isSome_iff_exists]
    constructor
    · rintro ⟨p, hp⟩
      obtain ⟨hmem, hid⟩ := (hinv.found _ p).mp hp
      obtain ⟨a, ha⟩ := hinv.active_open p hmem
      refine ⟨p, hmem, a, ha, ?_⟩
      rw [← hinv.instances p (hinv.active_listed p hmem) a ha]
      exact BitVec.eq_of_toInt_eq hid
    · rintro ⟨p, hmem, a, ha, rfl⟩
      refine ⟨p, (hinv.found _ p).mpr ⟨hmem, ?_⟩⟩
      rw [Stick.getInstanceID, hinv.instances p (hinv.active_listed p hmem) a ha]

/-- **The registry is consistent in every run**, and an `addJoystick` reuses a stick only
for a device of its GUID, and none that is connected. -/
theorem registry_consistent (guid : DeviceID → String) {m : JoystickModule}
    (h : (system guid).Reachable m) :
    Consistent m ∧ ∀ d fresh answer m', Step guid m (.add d fresh answer) m' →
      ReusesRightly guid m d m' := by
  have hinv := inv_of_reachable guid h
  refine ⟨hinv.consistent, ?_⟩
  intro d fresh answer m' hstep
  cases hstep with
  | add hfresh hanswer => exact (hinv.addJoystick guid hfresh hanswer).2

/-- No stick and no device. -/
def noSticks : JoystickModule where
  activeSticks := []
  joysticks := []
  stick _ := { id := 0 }
  sdl := { device := fun _ => 0, opens := fun _ => 0, attached := fun _ => false }

/-- One device, plugged in and added. -/
def addedOnce : JoystickModule :=
  (addJoystick (fun _ => "030000005e0400008e02000014010000") (noSticks.setAttached 1 true)
    1 10 (some (7, true))).2

/-- The same device added again. -/
def addedTwice : JoystickModule :=
  (addJoystick (fun _ => "030000005e0400008e02000014010000") addedOnce
    1 11 (some (7, true))).2

/-- The second object is gone again. -/
theorem registry_consistent_twice :
    Consistent addedTwice ∧ addedTwice.activeSticks = [10] ∧ addedTwice.joysticks = [10] := by
  have hempty : (system fun _ => "030000005e0400008e02000014010000").Reachable noSticks :=
    .init ⟨rfl, rfl, fun _ => rfl⟩
  have hplugged := hempty.step (@Step.connect _ _ 1)
  have honce := hplugged.step (@Step.add _ _ 1 10 (some (7, true))
    (not_mem_nil) (.inr ⟨rfl, fun b hb => absurd hb (Nat.lt_irrefl 0)⟩))
  have htwice := honce.step (@Step.add _ _ 1 11 (some (7, true))
    (by decide) (.inl ⟨by decide, by decide⟩))
  exact ⟨(registry_consistent _ htwice).1, by decide, by decide⟩

/-! ## The end of the module -/

/-- The loop of `JoystickModule::~JoystickModule`. -/
def destroy (m : JoystickModule) : JoystickModule := m.joysticks.foldl close m

theorem foldl_close {l : List StickRef} (hl : l.Nodup) (a : Handle) :
    (l.foldl close m).sdl.opens a =
        m.sdl.opens a - (l.map fun p => (m.stick p).holds a).sum ∧
      ∀ q ∉ l, (l.foldl close m).stick q = m.stick q := by
  induction l generalizing m with
  | nil => exact ⟨rfl, fun _ _ => rfl⟩
  | cons p l ih =>
    obtain ⟨hp, hl⟩ := nodup_cons.mp hl
    obtain ⟨hopens, hstick⟩ := ih (m := m.close p) hl
    have hsame : l.map (fun q => ((m.close p).stick q).holds a) =
        l.map fun q => (m.stick q).holds a :=
      map_congr_left fun q hq => by rw [close_stick_of_ne m (ne_of_mem_of_not_mem hq hp)]
    refine ⟨?_, fun q hq => ?_⟩
    · rw [foldl_cons, hopens, hsame, close_opens, map_cons, sum_cons, Nat.sub_sub]
    · obtain ⟨hne, hq⟩ := not_or.mp (mem_cons.not.mp hq)
      exact (hstick q hq).trans (close_stick_of_ne m hne)

/-- **No handle leaks**: whatever has happened, the destructor leaves nothing open in SDL, and
each stick only closes what is open when its turn comes. -/
theorem destroy_closes (guid : DeviceID → String) (h : (system guid).Reachable m) (a : Handle) :
    m.destroy.sdl.opens a = 0 ∧ ∀ l p l', m.joysticks = l ++ p :: l' →
      ((l.foldl close m).stick p).holds a ≤ (l.foldl close m).sdl.opens a := by
  have hinv := inv_of_reachable guid h
  refine ⟨?_, fun l p l' hjoysticks => ?_⟩
  · rw [destroy, (foldl_close hinv.joysticks_nodup a).1, hinv.opens, Nat.sub_self]
  · have hnodup := hinv.joysticks_nodup
    rw [hjoysticks, nodup_append_comm, cons_append, nodup_cons, nodup_append] at hnodup
    obtain ⟨hopens, hstick⟩ := foldl_close (m := m) hnodup.2.2.1 a
    rw [hopens, hstick p fun hp => hnodup.1 (mem_append_right _ hp), hinv.opens, hjoysticks,
      map_append, sum_append, map_cons, sum_cons]
    omega

/-- A gamepad has its handle open twice, until the module goes. -/
theorem destroy_closes_gamepad : addedOnce.sdl.opens 7 = 2 ∧ addedOnce.destroy.sdl.opens 7 = 0 := by
  have hempty : (system fun _ => "030000005e0400008e02000014010000").Reachable noSticks :=
    .init ⟨rfl, rfl, fun _ => rfl⟩
  have hplugged := hempty.step (@Step.connect _ _ 1)
  have honce := hplugged.step (@Step.add _ _ 1 10 (some (7, true))
    (not_mem_nil) (.inr ⟨rfl, fun b hb => absurd hb (Nat.lt_irrefl 0)⟩))
  exact ⟨by decide, (destroy_closes _ honce 7).1⟩

end JoystickModule

end Lhatove.Joystick
