import Aes70.Class.Handler

/-!
# The standard control classes

The method handlers of `aes70_classes.c`: OcaRoot, OcaWorker and OcaAgent, the actuators and the
sensors. Every handler is one `match` on the method index, as in the source.
-/

namespace Aes70

open Handler

variable {K : Kconfig}

/-- `aes70_root_dispatch`: OcaRoot, level 1. -/
def rootDispatch (i : ObjRef) (idx : UInt16) : Handler K := look fun d =>
  match idx with
  | 1 => -- GetClassIdentification
    let desc := classForKind (d.obj i).kind
    reply 1 (Field.classId desc.classId ++ [.u16 desc.classVersion])
  | 2 => reply 1 [.u8 1] -- GetLockable
  | 3 => -- SetLockNoReadWrite
    store fun d => d.modifyObj i fun o =>
      { o with lockState := .noReadWrite, lockOwner := d.activeConn }
  | 4 => -- Unlock
    store fun d => d.modifyObj i fun o => { o with lockState := .none, lockOwner := none }
  | 5 => reply 1 [.string (d.obj i).role] -- GetRole
  | 6 => -- SetLockNoWrite
    store fun d => d.modifyObj i fun o => { o with lockState := .noWrite, lockOwner := d.activeConn }
  | 7 => reply 1 [.u8 (d.obj i).lockState.code] -- GetLockState
  | _ => ret .badMethod

/-- `aes70_worker_dispatch`: OcaWorker, level 2. -/
def workerDispatch (i : ObjRef) (idx : UInt16) : Handler K := look fun d =>
  match idx with
  | 1 => reply 1 [.u8 (flag (d.obj i).enabled)] -- GetEnabled
  | 2 => -- SetEnabled
    reading Read.u8 fun v =>
      store fun d => (d.modifyObj i fun o => { o with enabled := v != 0 }).notify i 2 1
  | 5 => reply 1 [.u16 0] -- GetPorts
  | 8 => reply 1 [.string ((d.obj i).label.getD [])] -- GetLabel
  | 9 => -- SetLabel
    reading (Read.string 64) fun buf =>
      store fun d => (d.modifyObj i fun o => { o with label := some buf }).notify i 2 3
  | 10 => reply 1 [.u32 (d.obj i).ownerOno] -- GetOwner
  | _ => ret .notImplemented

/-- `gain_dispatch`: OcaGain and OcaFrequencyActuator, level 4. -/
def gainDispatch (i : ObjRef) (idx : UInt16) : Handler K := look fun d =>
  let o := d.obj i
  match idx with
  | 1 => reply 3 [.f32 (toF32 o.num), .f32 (toF32 o.numMin), .f32 (toF32 o.numMax)]
  | 2 =>
    reading Read.f32 fun g =>
      ranged (toF64 g) o.numMin o.numMax (store fun d => d.commitNum i (toF64 g) 4 1 true)
  | _ => ret .badMethod

/-- `state2_dispatch`: OcaMute and OcaPolarity, level 4. -/
def state2Dispatch (i : ObjRef) (idx : UInt16) : Handler K := look fun d =>
  match idx with
  | 1 => reply 1 [.u8 (toU8 (d.obj i).num)]
  | 2 =>
    reading Read.u8 fun s =>
      if s != 1 && s != 2 then ret .parameterOutOfRange
      else store fun d => d.commitNum i (.ofNat s.toNat) 4 1 true
  | _ => ret .badMethod

/-- `obj->sw_names && obj->sw_names[i] ? obj->sw_names[i] : ""`. -/
def Obj.swName (o : Obj) (k : ℕ) : Bytes := o.swNames.getD k []

/-- `switch_dispatch`: OcaSwitch, level 4. -/
def switchDispatch (i : ObjRef) (idx : UInt16) : Handler K := look fun d =>
  let o := d.obj i
  match idx with
  | 1 => -- GetPosition
    reply 3 [.u16 (toU16 o.num), .u16 0, .u16 (if o.swCount = 0 then 0 else o.swCount - 1)]
  | 2 => -- SetPosition
    reading Read.u16 fun p =>
      if o.swCount = 0 ∨ o.swCount - 1 < p then ret .parameterOutOfRange
      else store fun d => d.commitNum i (.ofNat p.toNat) 4 1 true
  | 3 => -- GetPositionName
    reading Read.u16 fun k =>
      if o.swCount ≤ k then ret .parameterOutOfRange else reply 1 [.string (o.swName k.toNat)]
  | 5 => -- GetPositionNames
    reply 1 (.u16 o.swCount :: (List.range o.swCount.toNat).map fun k => .string (o.swName k))
  | _ => ret .notImplemented

/-- `delay_dispatch`: OcaDelay, level 4. -/
def delayDispatch (i : ObjRef) (idx : UInt16) : Handler K := look fun d =>
  let o := d.obj i
  match idx with
  | 1 => reply 3 [.f64 o.num, .f64 o.numMin, .f64 o.numMax]
  | 2 =>
    reading Read.f64 fun t =>
      ranged t o.numMin o.numMax (store fun d => d.commitNum i t 4 1 true)
  | _ => ret .badMethod

/-- `sensor_dispatch`: OcaSensor, level 3. -/
def sensorDispatch (i : ObjRef) (idx : UInt16) : Handler K := look fun d =>
  match idx with
  | 1 => reply 1 [.u8 (d.obj i).readingState]
  | _ => ret .notImplemented

/-- `level_sensor_dispatch`: OcaLevelSensor and OcaTemperatureSensor, level 4. -/
def levelSensorDispatch (i : ObjRef) (idx : UInt16) : Handler K := look fun d =>
  let o := d.obj i
  match idx with
  | 1 => reply 3 [.f32 (toF32 o.num), .f32 (toF32 o.numMin), .f32 (toF32 o.numMax)]
  | _ => ret .notImplemented

/-- `aes70_identify_dispatch`: OcaIdentificationActuator, level 4. -/
def identifyDispatch (i : ObjRef) (idx : UInt16) : Handler K := look fun d =>
  match idx with
  | 1 => reply 1 [.u8 (flag (isNonzero (d.obj i).num))]
  | 2 =>
    reading Read.u8 fun v =>
      store fun d => d.commitNum i (.ofNat (flag (v != 0)).toNat) 4 1 true
  | _ => ret .badMethod

/-- `GetSetting` of the OcaBasicActuator children. -/
def getSetting (o : Obj) : Handler K :=
  match o.kind with
  | .boolean => reply 1 [.u8 (flag (isNonzero o.num))]
  | .string => reply 1 [.string (o.str.getD [])]
  | .float32 => reply 3 [.f32 (toF32 o.num), .f32 (toF32 o.numMin), .f32 (toF32 o.numMax)]
  | .int32 | .uint32 => reply 3 [.u32 (toU32 o.num), .u32 (toU32 o.numMin), .u32 (toU32 o.numMax)]
  | .uint16 => reply 3 [.u16 (toU16 o.num), .u16 (toU16 o.numMin), .u16 (toU16 o.numMax)]
  | _ => ret .notImplemented

/-- The numeric tail of `SetSetting`: read `v`, check the error, check the range, commit. -/
def setNumber (i : ObjRef) (o : Obj) (r : Read F64) : Handler K :=
  reading r fun v =>
    ranged v o.numMin o.numMax (store fun d => d.commitNum i v 5 1 true)

/-- `SetSetting` of the OcaBasicActuator children. -/
def setSetting (i : ObjRef) (o : Obj) : Handler K :=
  match o.kind with
  | .boolean =>
    reading Read.u8 fun v =>
      store fun d => d.commitNum i (.ofNat (flag (v != 0)).toNat) 5 1 true
  | .string =>
    reading (Read.string 128) fun buf =>
      if o.strMax ≠ 0 ∧ o.strMax.toNat < buf.length then ret .parameterOutOfRange
      else store fun d => d.commitStr i buf 5 1 true
  | .float32 => setNumber i o (toF64 <$> Read.f32)
  | .int32 => setNumber i o ((fun u => .ofInt u.toInt32.toInt) <$> Read.u32)
  | .uint16 => setNumber i o ((fun u => .ofNat u.toNat) <$> Read.u16)
  | .uint32 => setNumber i o ((fun u => .ofNat u.toNat) <$> Read.u32)
  | _ => ret .notImplemented

/-- `basic_actuator_dispatch`: the OcaBasicActuator children, level 5. -/
def basicActuatorDispatch (i : ObjRef) (idx : UInt16) : Handler K := look fun d =>
  match idx with
  | 1 => getSetting (d.obj i)
  | 2 => setSetting i (d.obj i)
  | _ => ret .badMethod

/-- The loop of `GetPath`, at most 16 steps from `o` up the owners; object number and role of each
object passed. -/
def pathUp (d : Device K) : (steps : ℕ) → Option ObjRef → List (UInt32 × Bytes)
  | 0, _ => []
  | _, none => []
  | steps + 1, some i =>
    let o := d.obj i
    (o.ono, o.role) ::
      if o.ono = 100 ∨ o.ownerOno = 0 then [] else pathUp d steps (d.find o.ownerOno)

/-- `aes70_agent_dispatch`: OcaAgent, level 2. -/
def agentDispatch (i : ObjRef) (idx : UInt16) : Handler K := look fun d =>
  match idx with
  | 1 => reply 1 [.string ((d.obj i).label.getD [])] -- GetLabel
  | 2 => -- SetLabel
    reading (Read.string 64) fun buf =>
      store fun d => d.modifyObj i fun o => { o with label := some buf }
  | 3 => reply 1 [.u32 (d.obj i).ownerOno] -- GetOwner
  | 4 => -- GetPath
    let path := (pathUp d 16 (some i)).reverse
    let n := UInt16.ofNat path.length
    reply 2 (.u16 n :: (path.map fun p => .string p.2) ++ .u16 n :: path.map fun p => .u32 p.1)
  | _ => ret .badMethod

end Aes70
