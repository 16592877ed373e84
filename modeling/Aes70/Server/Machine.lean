import Aes70.Machine.Basic
import Aes70.Transport.Conn
import Aes70.App.Basic

/-!
# The device as a machine

`aes70_device_start`, and the device as a deterministic machine: its inputs are the calls the
application makes and the turns of the server task, in any order and with any outcome of the socket
and TLS calls.

* `deviceStart` : the device `aes70_device_start` leaves on success.
* `Input` : one step of the environment.
* `server` : the machine; `typedServer` restricts set requests to those of the typed setters.
* `Sample` : a concrete device to run.
-/

namespace Aes70

variable {K : Kconfig}

/-- `aes70_device_start`, up to the point where the server task runs. It fails without the required
identity strings. -/
def deviceStart (K : Kconfig) (cfg : DeviceConfig) (net : Net) : Option (Device K) :=
  match cfg.deviceName, cfg.manufacturer, cfg.model with
  | some deviceName, some manufacturer, some model =>
    let d : Device K := {
      cfg, net
      deviceName := strlcpy 64 deviceName
      manufacturer := strlcpy 64 manufacturer
      model := strlcpy 64 model
      version := strlcpy 32 (cfg.version.getD [])
      serial := strlcpy 48 (cfg.serialNumber.getD [])
      deviceRole := []
      modelGuid := (cfg.modelGuid.getD []).takeD 8 0
      running := false
      cmdQ := []
      objects := []
      nextOno := 4096
      rootBlock := none
      deviceManager := none
      subscriptionManager := none
      conns := fun _ => .empty
      subs := fun _ => .empty
      notificationsDisabled := false
      activeConn := none
      log := [] }
    let (dm, d) := d.objectNew .deviceManager 1 (ascii "DeviceManager")
    let (sm, d) := d.objectNew .subscriptionManager 4 (ascii "SubscriptionManager")
    let (rb, d) := d.objectNew .block 100 (ascii "Root")
    if dm.isSome && sm.isSome && rb.isSome then
      some { d with deviceManager := dm, subscriptionManager := sm, rootBlock := rb, running := true }
    else none
  | _, _, _ => none

/-- A step of the environment. -/
inductive Input (K : Kconfig)
  /-- The application calls a constructor. -/
  | create (call : Create) (parent : Option ObjRef) (role : Bytes)
  | setLabel (i : ObjRef) (label : Bytes)
  | setSecured (i : ObjRef) (secured : Bool)
  | setTag (i : ObjRef) (tag : UInt32)
  | matrixSetMember (i : ObjRef) (x y : UInt16) (member : Option ObjRef)
  /-- The application posts a set request for an object. -/
  | post (i : ObjRef) (req : SetReq)
  /-- The server task drains the queue. -/
  | drain
  /-- A peer connects to the plaintext listener. -/
  | accept (addr : Bytes) (port : UInt16) (answer : Bool)
  /-- A peer connects to the TLS listener. -/
  | acceptTls (addr : Bytes) (port : UInt16) (sessionOk : Bool)
  /-- The server task looks after a connection slot. -/
  | service (c : Fin K.maxConnections) (now : ℤ) (inp : SlotInput)
  /-- The server task runs the keep-alive supervision. -/
  | keepalive (now : ℤ)

namespace Input

/-- What the application must respect: handles name objects of the device, a parent is one of its
blocks. -/
def Legal (d : Device K) : Input K → Prop
  | .create _ parent _ => ∀ b ∈ parent, b < d.objects.length ∧ (d.obj b).kind = .block
  | .setLabel i _ | .setSecured i _ | .setTag i _ => i < d.objects.length
  | .matrixSetMember i _ _ member =>
    i < d.objects.length ∧ ∀ j ∈ member, j < d.objects.length
  | .post i req => i < d.objects.length ∧ req.ono = (d.obj i).ono
  | _ => True

/-- Set requests are those of the typed setters. -/
def Typed (d : Device K) : Input K → Prop
  | .post i req => TypedSet (d.obj i) req
  | _ => True

/-- The effect of a step. -/
def run (d : Device K) : Input K → Device K
  | .create call parent role => d.create call parent role
  | .setLabel i label => d.setLabel i label
  | .setSecured i secured => d.setSecured i secured
  | .setTag i tag => d.setTag i tag
  | .matrixSetMember i x y member => d.matrixSetMember i x y member
  | .post _ req => d.postSet req
  | .drain => d.drainCmdQueue
  | .accept addr port answer => d.acceptConn addr port answer
  | .acceptTls addr port sessionOk => d.acceptTlsConn addr port sessionOk
  | .service c now inp => d.serviceConn c now inp
  | .keepalive now => d.serviceKeepalive now

end Input

/-- The device, from its start on, driven by any environment. -/
def server (K : Kconfig) : Machine (Device K) (Input K) where
  init d := ∃ cfg net, deviceStart K cfg net = some d
  ok d i := i.Legal d
  step d i := i.run d

/-- The device where the application uses the typed setters. -/
def typedServer (K : Kconfig) : Machine (Device K) (Input K) where
  init := (server K).init
  ok d i := (server K).ok d i ∧ i.Typed d
  step := (server K).step

/-! ### A sample device -/

namespace Sample

/-- An identity, all callbacks set. -/
def config : DeviceConfig where
  deviceName := some (ascii "device")
  manufacturer := some (ascii "maker")
  model := some (ascii "model")
  version := none
  serialNumber := none
  modelGuid := none
  onControlChanged := true
  authorize := true
  clientCaPem := false

/-- A network on which no send succeeds. -/
def net : Net := ⟨fun _ _ => [], fun _ => 0⟩

/-- The sample device right after its start; the root block is object 2. -/
def start : Device .default := (deviceStart .default config net).get rfl

theorem reach_start : (server .default).Reach start :=
  .init ⟨config, net, (Option.some_get _).symm⟩

/-- The device after more steps. -/
def after (is : List (Input .default)) : Device .default := is.foldl Input.run start

theorem reach_after {is : List (Input .default)} (h : (server .default).Run start is (after is)) :
    (server .default).Reach (after is) := reach_start.run h

theorem ok_create {d : Device .default} {call : Create} {role : Bytes} :
    (server .default).ok d (.create call none role) := fun _ h => nomatch h

end Sample

end Aes70
