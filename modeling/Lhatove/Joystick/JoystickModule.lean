import Lhatove.Lib.Transition

/-!
# Joysticks and their registry

`love::joystick::sdl::Joystick` (open, close, isConnected) and the two lists of
`love::joystick::sdl::JoystickModule`: `joysticks`, every stick ever made, and
`activeSticks`, the open ones.

SDL is the environment. It opens a device at an address, counts how many times
that address has been opened and not closed, and says which devices are
attached (`SDL`). What it answers to an open is an argument of `addJoystick`,
restricted by `SDL.Answers`: the same device twice gives the same handle.

The names, types and inputs of a stick take no part in the lists and are left
out.
-/

namespace Lhatove.Joystick

/-- An `SDL_JoystickID` (`Uint32`). -/
abbrev DeviceID := BitVec 32

/-- The address of an `SDL_Joystick`. -/
abbrev Handle := Nat

/-- The address of a `Joystick` object. -/
abbrev StickRef := Nat

/-- What SDL keeps: the device behind each handle, how often the handle is open,
and which devices are attached. -/
structure SDL where
  device : Handle → DeviceID
  opens : Handle → Nat
  attached : DeviceID → Bool

/-- `SDL_CloseJoystick` (and `SDL_CloseGamepad`, which closes the joystick of the
gamepad) of a pointer that may be null. -/
def SDL.closeHandle (sdl : SDL) : Option Handle → SDL
  | none => sdl
  | some a => { sdl with opens := Function.update sdl.opens a (sdl.opens a - 1) }

/-- `SDL_OpenJoystick` answering the handle `a` for the device `d`. -/
def SDL.openHandle (sdl : SDL) (d : DeviceID) (a : Handle) : SDL :=
  { sdl with
    device := Function.update sdl.device a d
    opens := Function.update sdl.opens a (sdl.opens a + 1) }

/-- The answers that SDL may give to an open: null, the handle that has the device
open already, or an unused one where none has. -/
def SDL.Answers (sdl : SDL) (d : DeviceID) : Option Handle → Prop
  | none => True
  | some a =>
      (0 < sdl.opens a ∧ sdl.device a = d) ∨
      (sdl.opens a = 0 ∧ ∀ b, 0 < sdl.opens b → sdl.device b ≠ d)

/-- `love::joystick::sdl::Joystick`. The gamepad is kept as the handle it holds open. -/
structure Stick where
  joyhandle : Option Handle := none
  controller : Option Handle := none
  pguid : String := ""
  instanceid : DeviceID := -1
  id : Nat

/-- `Joystick::getInstanceID`: an `int`. -/
def Stick.getInstanceID (s : Stick) : Int := s.instanceid.toInt

/-- `Joystick::isConnected` -/
def Stick.isConnected (sdl : SDL) (s : Stick) : Bool :=
  match s.joyhandle with
  | none => false
  | some a => sdl.attached (sdl.device a)

/-- What `Joystick::close` leaves of the stick. -/
def Stick.closed (s : Stick) : Stick :=
  { s with joyhandle := none, controller := none, instanceid := -1 }

/-- What `Joystick::open` makes of a closed stick when SDL answered the handle `a`,
and a gamepad as well if `gamepad`. -/
def Stick.opened (guid : DeviceID → String) (d : DeviceID) (a : Handle) (gamepad : Bool)
    (s : Stick) : Stick :=
  { s with
    joyhandle := some a
    controller := if gamepad then some a else none
    pguid := guid d
    instanceid := d }

/-- The module, its sticks, and SDL. -/
structure JoystickModule where
  activeSticks : List StickRef
  joysticks : List StickRef
  stick : StickRef → Stick
  sdl : SDL

namespace JoystickModule

/-- `JoystickModule::getJoystickFromID` -/
def getJoystickFromID (m : JoystickModule) (instanceid : Int) : Option StickRef :=
  m.activeSticks.find? fun p => (m.stick p).getInstanceID == instanceid

/-- `Joystick::close` of the stick `p`: the gamepad first. -/
def close (m : JoystickModule) (p : StickRef) : JoystickModule :=
  { m with
    stick := Function.update m.stick p (m.stick p).closed
    sdl := (m.sdl.closeHandle (m.stick p).controller).closeHandle (m.stick p).joyhandle }

/-- The part of `Joystick::open` behind its `close`, with SDL's answer. -/
def opening (guid : DeviceID → String) (m : JoystickModule) (p : StickRef) (d : DeviceID) :
    Option (Handle × Bool) → JoystickModule
  | none => m
  | some (a, gamepad) =>
    let sdl := m.sdl.openHandle d a
    { m with
      stick := Function.update m.stick p ((m.stick p).opened guid d a gamepad)
      sdl := if gamepad then sdl.openHandle d a else sdl }

/-- `Joystick::open` up to its answer, which is `isConnected`. -/
def openStick (guid : DeviceID → String) (m : JoystickModule) (p : StickRef) (d : DeviceID)
    (answer : Option (Handle × Bool)) : JoystickModule :=
  (m.close p).opening guid p d answer

/-- `JoystickModule::removeJoystick` -/
def removeJoystick (m : JoystickModule) : Option StickRef → JoystickModule
  | none => m
  | some p =>
    if p ∈ m.activeSticks then
      { m.close p with activeSticks := m.activeSticks.erase p }
    else m

/-- `SDL_GUIDToString` of the zero GUID, which SDL answers for an unknown device. -/
def zeroGUID : String := "00000000000000000000000000000000"

/-- `JoystickModule::getDeviceGUID` -/
def getDeviceGUID (guid : DeviceID → String) (m : JoystickModule) (deviceid : Int) : String :=
  if deviceid ≤ 0 then ""
  else
    let d := BitVec.ofInt 32 deviceid
    if m.sdl.attached d then guid d else zeroGUID

/-- The first stick of `addJoystick`'s search: disconnected, with the GUID of the device. -/
def reusable (guid : DeviceID → String) (m : JoystickModule) (deviceid : Int) :
    Option StickRef :=
  m.joysticks.find? fun p =>
    !(m.stick p).isConnected m.sdl && (m.stick p).pguid == getDeviceGUID guid m deviceid

/-- `new Joystick(joysticks.size())` at the address `fresh`, pushed to the back. -/
def create (m : JoystickModule) (fresh : StickRef) : JoystickModule :=
  { m with
    joysticks := m.joysticks ++ [fresh]
    stick := Function.update m.stick fresh { id := m.joysticks.length } }

/-- `addJoystick` up to the open: the stick it goes on with, made inactive. -/
def choose (guid : DeviceID → String) (m : JoystickModule) (deviceid : Int)
    (fresh : StickRef) : StickRef × JoystickModule :=
  match reusable guid m deviceid with
  | some p => (p, m.removeJoystick (some p))
  | none => (fresh, (m.create fresh).removeJoystick (some fresh))

/-- `addJoystick` behind the open: what it answers, and the module. -/
def register (m : JoystickModule) (p : StickRef) (reused : Bool) :
    Option StickRef × JoystickModule :=
  if (m.stick p).isConnected m.sdl then
    match m.activeSticks.find? fun q => (m.stick p).joyhandle == (m.stick q).joyhandle with
    | some q =>
      let m := m.close p
      (some q, if reused then m else { m with joysticks := m.joysticks.filter (· ≠ p) })
    | none => (some p, { m with activeSticks := m.activeSticks ++ [p] })
  else (none, m)

/-- `JoystickModule::addJoystick`, the new object's address and SDL's answer given. -/
def addJoystick (guid : DeviceID → String) (m : JoystickModule) (deviceid : Int)
    (fresh : StickRef) (answer : Option (Handle × Bool)) :
    Option StickRef × JoystickModule :=
  if deviceid = 0 then (none, m)
  else
    let chosen := choose guid m deviceid fresh
    let opened := openStick guid chosen.2 chosen.1 (BitVec.ofInt 32 deviceid) answer
    register opened chosen.1 (reusable guid m deviceid).isSome

/-! ## The runs -/

/-- What happens to the module: devices come and go, sticks are added and removed. Every
caller of `addJoystick` passes an `SDL_JoystickID`. -/
inductive Event where
  | connect (d : DeviceID)
  | disconnect (d : DeviceID)
  | add (d : DeviceID) (fresh : StickRef) (answer : Option (Handle × Bool))
  | remove (p : Option StickRef)

/-- A device comes or goes. -/
def setAttached (m : JoystickModule) (d : DeviceID) (b : Bool) : JoystickModule :=
  { m with sdl := { m.sdl with attached := Function.update m.sdl.attached d b } }

/-- What SDL is asked by `addJoystick`, once the stick has been closed. -/
def asked (guid : DeviceID → String) (m : JoystickModule) (deviceid : Int)
    (fresh : StickRef) : SDL :=
  let chosen := choose guid m deviceid fresh
  (chosen.2.close chosen.1).sdl

/-- One event. A new object is at an address that no stick has, and SDL answers an open
as it does. -/
inductive Step (guid : DeviceID → String) : JoystickModule → Event → JoystickModule → Prop
  | connect {m d} : Step guid m (.connect d) (m.setAttached d true)
  | disconnect {m d} : Step guid m (.disconnect d) (m.setAttached d false)
  | add {m d fresh answer} (hfresh : fresh ∉ m.joysticks)
      (hanswer : (asked guid m d.toNat fresh).Answers d (answer.map Prod.fst)) :
      Step guid m (.add d fresh answer) (addJoystick guid m d.toNat fresh answer).2
  | remove {m p} : Step guid m (.remove p) (m.removeJoystick p)

/-- Before the first stick: no handle is open. -/
def Initial (m : JoystickModule) : Prop :=
  m.activeSticks = [] ∧ m.joysticks = [] ∧ ∀ a, m.sdl.opens a = 0

/-- The module with the devices' GUIDs. -/
def system (guid : DeviceID → String) : System JoystickModule Event where
  init := Initial
  step := Step guid

end JoystickModule

end Lhatove.Joystick
