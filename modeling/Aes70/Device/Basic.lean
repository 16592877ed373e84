import Mathlib.Data.Fintype.Pi
import Aes70.Ocp1.Codec

/-!
# The device state

The data model of `aes70_internal.h` and of the class-private states of `aes70_dsp.c`,
`aes70_grouper.c` and `aes70_matrix.c`.

* `Kconfig` : the build-time limits, each with the range its `Kconfig` entry declares.
* `Obj` : `struct aes70_object`; a pointer to an object is its index in the registry (`ObjRef`).
* `Conn`, `Subscription` : the entries of the connection and the subscription table.
* `Event` : what the device does towards the outside, recorded in the ghost field `Device.log`.
* `Device K` : `struct aes70_device`.

Heap allocation is assumed to succeed; sockets are represented by the outcomes the environment
gives to the calls made on them (`Net`).
-/

namespace Aes70

/-- The build-time configuration (`CONFIG_AES70_…`). -/
structure Kconfig where
  /-- `CONFIG_AES70_MAX_OBJECTS`. -/
  maxObjects : ℕ
  /-- `CONFIG_AES70_MAX_CONNECTIONS`. -/
  maxConnections : ℕ
  /-- `CONFIG_AES70_RX_BUFFER_SIZE`. -/
  rxBufferSize : ℕ
  /-- `CONFIG_AES70_TX_BUFFER_SIZE`. -/
  txBufferSize : ℕ
  /-- `CONFIG_AES70_MAX_SUBSCRIPTIONS`. -/
  maxSubscriptions : ℕ
  /-- `CONFIG_AES70_KEEPALIVE_TIMEOUT_FACTOR`. -/
  keepaliveTimeoutFactor : ℕ
  /-- `CONFIG_AES70_TLS_HANDSHAKE_TIMEOUT_MS`. -/
  tlsHandshakeTimeoutMs : ℕ
  /-- `range 8 1024`. -/
  maxObjects_range : 8 ≤ maxObjects ∧ maxObjects ≤ 1024
  /-- `range 1 16`. -/
  maxConnections_range : 1 ≤ maxConnections ∧ maxConnections ≤ 16
  /-- `range 512 16384`. -/
  rxBufferSize_range : 512 ≤ rxBufferSize ∧ rxBufferSize ≤ 16384
  /-- `range 512 16384`. -/
  txBufferSize_range : 512 ≤ txBufferSize ∧ txBufferSize ≤ 16384
  /-- `range 4 1024`. -/
  maxSubscriptions_range : 4 ≤ maxSubscriptions ∧ maxSubscriptions ≤ 1024

/-- The defaults of `Kconfig`. -/
def Kconfig.default : Kconfig where
  maxObjects := 128
  maxConnections := 4
  rxBufferSize := 2048
  txBufferSize := 2048
  maxSubscriptions := 64
  keepaliveTimeoutFactor := 3
  tlsHandshakeTimeoutMs := 8000
  maxObjects_range := by decide
  maxConnections_range := by decide
  rxBufferSize_range := by decide
  txBufferSize_range := by decide
  maxSubscriptions_range := by decide

/-! ### Enumerations -/

/-- `aes70_status_t`. -/
inductive Status
  | ok | protocolVersionError | deviceError | locked | badFormat | badOno | parameterError
  | parameterOutOfRange | notImplemented | invalidRequest | processingFailed | badMethod
  | partiallySucceeded | timeout | bufferOverflow | permissionDenied | outOfMemory | busy
deriving DecidableEq

/-- The byte a status is carried as. -/
def Status.code : Status → UInt8
  | .ok => 0
  | .protocolVersionError => 1
  | .deviceError => 2
  | .locked => 3
  | .badFormat => 4
  | .badOno => 5
  | .parameterError => 6
  | .parameterOutOfRange => 7
  | .notImplemented => 8
  | .invalidRequest => 9
  | .processingFailed => 10
  | .badMethod => 11
  | .partiallySucceeded => 12
  | .timeout => 13
  | .bufferOverflow => 14
  | .permissionDenied => 15
  | .outOfMemory => 16
  | .busy => 17

/-- `aes70_kind_t`. -/
inductive Kind
  | block | gain | mute | polarity | switch | delay | boolean | int32 | uint16 | uint32 | float32
  | string | levelSensor | temperature | frequency | identify | dynamics | filterClassical
  | filterParametric | panBalance | signalGen | grouper | matrix | deviceManager
  | subscriptionManager
deriving DecidableEq

/-- `aes70_lock_state_t`. -/
inductive LockState
  | none | noWrite | noReadWrite
deriving DecidableEq

/-- The byte a lock state is carried as. -/
def LockState.code : LockState → UInt8
  | .none => 0
  | .noWrite => 1
  | .noReadWrite => 2

/-- The parameter selectors of the application's set path; `scalar` is 0. -/
inductive Sel
  | scalar
  | dynFunction | dynThreshold | dynRatio | dynSlope | dynAttack | dynRelease | dynHold | dynKnee
  | dynGainFloor | dynGainCeiling | dynDetectorLaw | dynThresholdUnits | dynDynamicGain
  | dynTriggered
  | fltFrequency | fltPassband | fltShape | fltOrder | fltParameter
  | peqFrequency | peqShape | peqWidth | peqInbandGain | peqShapeParam
  | panPosition | panMidpointGain
  | sigFreq1 | sigFreq2 | sigLevel | sigWaveform | sigSweepType | sigSweepTime | sigSweepRepeat
  | sigGenerating
deriving DecidableEq

/-! ### Class-private states -/

/-- `dyn_state_t`. -/
structure DynState where
  function : UInt8
  detectorLaw : UInt8
  thresholdUnits : UInt8
  threshold : F32
  thresholdRef : F32
  thresholdMin : F32
  thresholdMax : F32
  ratio : F32
  ratioMin : F32
  ratioMax : F32
  attack : F32
  attackMin : F32
  attackMax : F32
  release : F32
  releaseMin : F32
  releaseMax : F32
  hold : F32
  holdMin : F32
  holdMax : F32
  knee : F32
  kneeMin : F32
  kneeMax : F32
  gainFloor : F32
  gainFloorMin : F32
  gainFloorMax : F32
  gainCeiling : F32
  gainCeilingMin : F32
  gainCeilingMax : F32
  dynamicGain : F32
  triggered : Bool
deriving DecidableEq

/-- `flt_state_t`. -/
structure FltState where
  frequency : F32
  frequencyMin : F32
  frequencyMax : F32
  passband : UInt8
  shape : UInt8
  order : UInt16
  orderMin : UInt16
  orderMax : UInt16
  parameter : F32
  parameterMin : F32
  parameterMax : F32
deriving DecidableEq

/-- `peq_state_t`. -/
structure PeqState where
  frequency : F32
  frequencyMin : F32
  frequencyMax : F32
  shape : UInt8
  width : F32
  widthMin : F32
  widthMax : F32
  inbandGain : F32
  inbandMin : F32
  inbandMax : F32
  shapeParam : F32
  shapeParamMin : F32
  shapeParamMax : F32
deriving DecidableEq

/-- `pan_state_t`. -/
structure PanState where
  position : F32
  positionMin : F32
  positionMax : F32
  midpointGain : F32
  midpointMin : F32
  midpointMax : F32
deriving DecidableEq

/-- `sig_state_t`. -/
structure SigState where
  freq1 : F32
  freq1Min : F32
  freq1Max : F32
  freq2 : F32
  freq2Min : F32
  freq2Max : F32
  level : F32
  levelMin : F32
  levelMax : F32
  waveform : UInt8
  sweepType : UInt8
  sweepTime : F32
  sweepTimeMin : F32
  sweepTimeMax : F32
  sweepRepeat : Bool
  generating : Bool
deriving DecidableEq

/-- `g_group_t`. -/
structure Group where
  used : Bool
  name : Bytes
  proxyOno : UInt32
deriving DecidableEq

/-- `g_citizen_t`. -/
structure Citizen where
  used : Bool
  ono : UInt32
  online : Bool
deriving DecidableEq

/-- `grouper_priv_t`, with `G_MAX_GROUPS` = 16 groups, `G_MAX_CITIZENS` = 32 citizens and
`G_CBYTES` = 4 bytes of enrolment bits for each group. -/
structure GrouperPriv where
  citizenKind : Kind
  /-- One for each `aes70_grouper_citizen_class_t`. -/
  citizenKind_mem : citizenKind ∈ [.gain, .mute, .boolean]
  actuator : Bool
  mode : UInt8
  groups : Fin 16 → Group
  citizens : Fin 32 → Citizen
  enroll : Fin 16 → Fin 4 → UInt8
deriving DecidableEq

namespace GrouperPriv

/-- `enrolled`. -/
def enrolled (g : GrouperPriv) (gi : Fin 16) (ci : Fin 32) : Bool :=
  ((g.enroll gi ⟨ci / 8, by omega⟩ >>> UInt8.ofNat (ci % 8)) &&& 1) == 1

/-- `set_enroll`. -/
def setEnroll (g : GrouperPriv) (gi : Fin 16) (ci : Fin 32) (on : Bool) : GrouperPriv :=
  let bit : UInt8 := 1 <<< UInt8.ofNat (ci % 8)
  let k : Fin 4 := ⟨ci / 8, by omega⟩
  let b := if on then g.enroll gi k ||| bit else g.enroll gi k &&& ~~~bit
  { g with enroll := Function.update g.enroll gi (Function.update (g.enroll gi) k b) }

end GrouperPriv

/-- `matrix_priv_t`; `members` is indexed by row, then column (`MX_MAX` = 16). -/
structure MatrixPriv where
  xSize : UInt16
  ySize : UInt16
  xMax : UInt16
  yMax : UInt16
  curX : UInt16
  curY : UInt16
  proxyOno : UInt32
  portsPerRow : UInt8
  portsPerCol : UInt8
  xyLocked : Bool
  members : Fin 16 → Fin 16 → UInt32
deriving DecidableEq

/-- What `aes70_object::priv` points to. -/
inductive Priv
  | null
  | dynamics (d : DynState)
  | filter (f : FltState)
  | peq (p : PeqState)
  | pan (p : PanState)
  | siggen (s : SigState)
  | grouper (g : GrouperPriv)
  | matrix (m : MatrixPriv)
deriving DecidableEq

/-- The tables of a grouper. -/
def Priv.tables : Priv → Option GrouperPriv
  | .grouper g => some g
  | _ => none

/-! ### Objects, connections, subscriptions -/

/-- A pointer to an object: its index in `dev->objects`. -/
abbrev ObjRef := ℕ

/-- `struct aes70_object`. -/
structure Obj where
  ono : UInt32
  kind : Kind
  ownerOno : UInt32
  role : Bytes
  /-- `none` is the null pointer. -/
  label : Option Bytes
  enabled : Bool
  lockState : LockState
  /-- Connection holding the lock; `none` is -1. -/
  lockOwner : Option ℕ
  secured : Bool
  tag : UInt32
  num : F64
  numMin : F64
  numMax : F64
  readingState : UInt8
  swCount : UInt16
  swNames : List Bytes
  /-- `none` is the null pointer. -/
  str : Option Bytes
  strMax : UInt16
  children : List ObjRef
  priv : Priv
deriving DecidableEq

/-- The object `calloc` and the first stores of `aes70_object_new` leave. -/
def Obj.fresh (kind : Kind) (ono : UInt32) (role : Bytes) : Obj where
  ono := ono
  kind := kind
  ownerOno := 0
  role := role
  label := none
  enabled := true
  lockState := .none
  lockOwner := none
  secured := false
  tag := 0
  num := .zero
  numMin := .zero
  numMax := .zero
  readingState := 0
  swCount := 0
  swNames := []
  str := none
  strMax := 0
  children := []
  priv := .null

/-- `aes70_subscription_t`; `context` holds `context[0 .. context_len)`. -/
structure Subscription where
  inUse : Bool
  connIdx : ℕ
  emitterOno : UInt32
  eventLevel : UInt16
  eventIndex : UInt16
  subOno : UInt32
  subMethodLevel : UInt16
  subMethodIndex : UInt16
  context : Bytes
  deliveryMode : UInt8
deriving DecidableEq

/-- A slot after `memset`. -/
def Subscription.empty : Subscription := ⟨false, 0, 0, 0, 0, 0, 0, 0, [], 0⟩

/-- `s` subscribes to the PropertyChanged event, (1,1), of the object with number `ono`. -/
def Subscription.watches (s : Subscription) (ono : UInt32) : Bool :=
  s.inUse && s.emitterOno == ono && s.eventLevel == 1 && s.eventIndex == 1

/-- `aes70_conn_t`; `rx` holds `rx[0 .. rx_len)`. -/
structure Conn where
  inUse : Bool
  secure : Bool
  privileged : Bool
  /-- The connection has an `esp_tls_t`. -/
  tls : Bool
  handshaking : Bool
  hsDeadlineUs : ℤ
  addr : Bytes
  port : UInt16
  rx : Bytes
  heartbeatMs : UInt32
  kaWidth : UInt8
  lastRxUs : ℤ
  lastTxUs : ℤ

/-- A slot after `memset`. -/
def Conn.empty : Conn := ⟨false, false, false, false, false, 0, [], 0, [], 0, 0, 0, 0⟩

/-- `aes70_set_req_t`. -/
structure SetReq where
  ono : UInt32
  sel : Sel
  isString : Bool
  num : F64
  num2 : F64
  str : Bytes

/-- The part of `aes70_device_config_t` the modelled functions read: identity strings (`none` is
the null pointer) and which of the callbacks and certificates are set. -/
structure DeviceConfig where
  deviceName : Option Bytes
  manufacturer : Option Bytes
  model : Option Bytes
  version : Option Bytes
  serialNumber : Option Bytes
  modelGuid : Option Bytes
  onControlChanged : Bool
  authorize : Bool
  clientCaPem : Bool

/-- A command of a `Cmd` or `CmdRrq` PDU. -/
structure Command where
  handle : UInt32
  target : UInt32
  level : UInt16
  index : UInt16
  /-- Informational; never checked. -/
  paramCount : UInt8
  params : Bytes
deriving DecidableEq

/-! ### The environment -/

/-- What the device does towards the outside. -/
inductive Event
  /-- `aes70_notify_property_changed` ran with notifications enabled: the object, its state, the
  property, and the frames handed to `aes70_conn_send` with their connections. -/
  | propertyChanged (i : ObjRef) (o : Obj) (level index : UInt16) (sent : List (ℕ × Bytes))
  /-- `on_control_changed` was called with the object in this state. -/
  | controlChanged (i : ObjRef) (o : Obj)
  /-- A frame was handed to the socket of a connection, which accepted that many of its bytes. -/
  | tx (conn : ℕ) (frame : Bytes) (accepted : ℕ)
  /-- A command was executed. -/
  | command (conn : ℕ) (cmd : Command) (status : Status)
  /-- A slot was given to a new connection. -/
  | accepted (conn : ℕ) (tls : Bool)
  /-- The privilege decision for the connection in a slot was taken. -/
  | authorized (conn : ℕ) (granted : Bool)
  /-- `close_conn` freed a slot. -/
  | closed (conn : ℕ)
deriving DecidableEq

/-- The outcome of one `send` or `esp_tls_conn_write` call. -/
inductive SendResult
  /-- So many bytes were accepted. -/
  | wrote (n : ℕ)
  /-- `EINTR`, or a TLS call that wants to be repeated. -/
  | again
  | failed

/-- The environment's answers to socket and clock calls, as functions of what happened before. -/
structure Net where
  /-- The results of the calls made to send the next frame on a connection. -/
  sends : List Event → ℕ → List SendResult
  /-- `esp_timer_get_time`. -/
  clock : List Event → ℤ

/-! ### Device -/

/-- `struct aes70_device`, for the configuration `K`. -/
structure Device (K : Kconfig) where
  cfg : DeviceConfig
  net : Net
  deviceName : Bytes
  manufacturer : Bytes
  model : Bytes
  version : Bytes
  serial : Bytes
  deviceRole : Bytes
  modelGuid : Bytes
  running : Bool
  cmdQ : List SetReq
  /-- `objects[0 .. object_count)`. -/
  objects : List Obj
  nextOno : UInt32
  rootBlock : Option ObjRef
  deviceManager : Option ObjRef
  subscriptionManager : Option ObjRef
  conns : Fin K.maxConnections → Conn
  subs : Fin K.maxSubscriptions → Subscription
  notificationsDisabled : Bool
  /-- Connection being dispatched; `none` is -1. -/
  activeConn : Option ℕ
  /-- Ghost: everything the device did so far. -/
  log : List Event

namespace Device

variable {K : Kconfig}

/-- `*obj` for a pointer into the registry. -/
def obj (d : Device K) (i : ObjRef) : Obj := d.objects.getD i (.fresh .block 0 [])

/-- A store through an object pointer. -/
def modifyObj (d : Device K) (i : ObjRef) (f : Obj → Obj) : Device K :=
  { d with objects := d.objects.modify i f }

/-- A store to a connection entry. -/
def modifyConn (d : Device K) (c : Fin K.maxConnections) (f : Conn → Conn) : Device K :=
  { d with conns := Function.update d.conns c (f (d.conns c)) }

/-- Record an event. -/
def emit (d : Device K) (e : Event) : Device K := { d with log := d.log ++ [e] }

/-- `aes70_device_find`: the first object with this number. -/
def find (d : Device K) (ono : UInt32) : Option ObjRef := d.objects.findIdx? fun o => o.ono == ono

/-- The entry of a connection index, if the index is one of the table. -/
def conn? (d : Device K) (c : ℕ) : Option Conn :=
  if h : c < K.maxConnections then some (d.conns ⟨c, h⟩) else none

end Device

end Aes70
