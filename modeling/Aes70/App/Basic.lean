import Aes70.Class.Dsp
import Aes70.Class.Grouper
import Aes70.Class.Matrix

/-!
# The application's side

The public object API of `aes70_object.h` and the queue of value changes: constructors, direct
stores, and set requests, which the server task applies (`aes70_object_apply_set`).

* `Create` : the constructors; each is a kind and the stores made into the fresh object.
* `TypedSet` : the set requests the typed setters build for an object of their class.
* `Device.applySet` : apply a request, clamped to the range of the object.
-/

namespace Aes70

variable {K : Kconfig}

/-! ### Constructors -/

/-- `clampd`. -/
def clampd (v lo hi : F64) : F64 := if v.lt lo then lo else if hi.lt v then hi else v

/-- The stores of `make_num`. -/
def makeNum (lo hi init : F64) (o : Obj) : Obj :=
  { o with numMin := lo, numMax := hi, num := clampd init lo hi }

/-- The stores of the sensor constructors, which start at the minimum with a valid reading. -/
def makeSensor (lo hi : F32) (o : Obj) : Obj :=
  { makeNum (toF64 lo) (toF64 hi) (toF64 lo) o with readingState := 1 }

/-- `aes70_grouper_citizen_class_t`. -/
inductive GrouperClass
  | gain | mute | boolean

/-- The kind of the citizens of a grouper. -/
def GrouperClass.kind : GrouperClass → Kind
  | .gain => .gain
  | .mute => .mute
  | .boolean => .boolean

theorem GrouperClass.kind_mem (c : GrouperClass) : c.kind ∈ [.gain, .mute, .boolean] := by
  cases c <;> decide

/-- A call of one of the constructors, `aes70_…_create`. -/
inductive Create
  | block
  | gain (min max init : F32)
  | mute (muted : Bool)
  | polarity (inverted : Bool)
  /-- `names` is the array of position names, `none` for the null pointer. -/
  | switch (names : Option (List Bytes)) (count init : UInt16)
  | delay (min max init : F64)
  | boolean (init : Bool)
  | float (min max init : F32)
  | uint16 (min max init : UInt16)
  | uint32 (min max init : UInt32)
  | int32 (min max init : Int32)
  | string (init : Bytes) (maxLen : UInt16)
  | levelSensor (min max : F32)
  | frequency (min max init : F32)
  | temperature (min max : F32)
  | identify
  | dynamics (function : UInt8)
  | filter (passband shape : UInt8) (frequency : F32) (order : UInt16)
  | parametricEq (shape : UInt8) (frequency gain q : F32)
  | panBalance
  | signalGenerator (waveform : UInt8) (frequency level : F32)
  | grouper (citizenClass : GrouperClass)
  | matrix (xSize ySize : UInt16)

namespace Create

/-- The kind of the object a constructor allocates. -/
def kind : Create → Kind
  | .block => .block
  | .gain .. => .gain
  | .mute _ => .mute
  | .polarity _ => .polarity
  | .switch .. => .switch
  | .delay .. => .delay
  | .boolean _ => .boolean
  | .float .. => .float32
  | .uint16 .. => .uint16
  | .uint32 .. => .uint32
  | .int32 .. => .int32
  | .string .. => .string
  | .levelSensor .. => .levelSensor
  | .frequency .. => .frequency
  | .temperature .. => .temperature
  | .identify => .identify
  | .dynamics _ => .dynamics
  | .filter .. => .filterClassical
  | .parametricEq .. => .filterParametric
  | .panBalance => .panBalance
  | .signalGenerator .. => .signalGen
  | .grouper _ => .grouper
  | .matrix .. => .matrix

/-- The stores of `aes70_switch_create`. Without an array of names there are no positions. -/
def setupSwitch (names : Option (List Bytes)) (count init : UInt16) (o : Obj) : Obj :=
  let o := { o with
    numMax := if count = 0 then .zero else .ofNat (count.toNat - 1)
    num := if count ≠ 0 ∧ init < count then .ofNat init.toNat else .zero }
  match names with
  | some ns =>
    if count = 0 then o
    else { o with swCount := count, swNames := (List.range count.toNat).map fun k => ns.getD k [] }
  | none => o

/-- The stores a constructor makes into the fresh object. -/
def setup : Create → Obj → Obj
  | .block => id
  | .gain lo hi v | .float lo hi v | .frequency lo hi v => makeNum (toF64 lo) (toF64 hi) (toF64 v)
  | .mute muted => makeNum (.ofNat 1) (.ofNat 2) (.ofNat (if muted then 1 else 2))
  | .polarity inverted => makeNum (.ofNat 1) (.ofNat 2) (.ofNat (if inverted then 2 else 1))
  | .switch names count init => setupSwitch names count init
  | .delay lo hi v => makeNum lo hi v
  | .boolean v => makeNum (.ofNat 0) (.ofNat 1) (.ofNat (flag v).toNat)
  | .uint16 lo hi v => makeNum (.ofNat lo.toNat) (.ofNat hi.toNat) (.ofNat v.toNat)
  | .uint32 lo hi v => makeNum (.ofNat lo.toNat) (.ofNat hi.toNat) (.ofNat v.toNat)
  | .int32 lo hi v => makeNum (.ofInt lo.toInt) (.ofInt hi.toInt) (.ofInt v.toInt)
  | .string init maxLen => fun o => { o with strMax := maxLen, str := some init }
  | .levelSensor lo hi | .temperature lo hi => makeSensor lo hi
  | .identify => makeNum (.ofNat 0) (.ofNat 1) (.ofNat 0)
  | .dynamics function => fun o => { o with priv := .dynamics { DynState.init with function } }
  | .filter passband shape hz order => fun o =>
    { o with priv := .filter { FltState.init with passband, shape, frequency := hz, order } }
  | .parametricEq shape hz db q => fun o =>
    let p := { PeqState.init with shape, frequency := hz, inbandGain := db, width := q }
    { o with priv := .peq p }
  | .panBalance => fun o => { o with priv := .pan .init }
  | .signalGenerator waveform hz level => fun o =>
    { o with priv := .siggen { SigState.init with waveform, freq1 := hz, level } }
  | .grouper cls => fun o => { o with priv := .grouper (.init cls.kind cls.kind_mem) }
  | .matrix x y => fun o => { o with priv := .matrix (.init x y) }

end Create

namespace Device

/-- A constructor call with a parent handle (`none` for the root block). -/
def create (d : Device K) (call : Create) (parent : Option ObjRef) (role : Bytes) : Device K :=
  match d.objectAlloc call.kind parent role with
  | (some i, d) => d.modifyObj i call.setup
  | (none, d) => d

/-- `aes70_object_set_label`. -/
def setLabel (d : Device K) (i : ObjRef) (label : Bytes) : Device K :=
  d.modifyObj i fun o => { o with label := some label }

/-- `aes70_object_set_secured`. -/
def setSecured (d : Device K) (i : ObjRef) (secured : Bool) : Device K :=
  d.modifyObj i fun o => { o with secured }

/-- `aes70_object_set_tag`. -/
def setTag (d : Device K) (i : ObjRef) (tag : UInt32) : Device K :=
  d.modifyObj i fun o => { o with tag }

/-- `aes70_matrix_set_member`; `none` empties the cell. -/
def matrixSetMember (d : Device K) (i : ObjRef) (x y : UInt16) (member : Option ObjRef) :
    Device K :=
  match (d.obj i).kind, (d.obj i).priv with
  | .matrix, .matrix m =>
    if m.hasCell x y then
      let ono := (member.map fun j => (d.obj j).ono).getD 0
      storeMatrix i (m.setMember (y.toNat - 1) (x.toNat - 1) ono) d
    else d
  | _, _ => d

end Device

/-! ### Set requests -/

/-- `set_num`. -/
def setNum (o : Obj) (v : F64) : SetReq := ⟨o.ono, .scalar, false, v, .zero, []⟩

/-- `dyn_post`, `flt_post`, `peq_post`, `sig_post` and the request of
`aes70_panbalance_set_position`: one parameter of a DSP class. -/
def dspPost (o : Obj) (sel : Sel) (v : F64) : SetReq := ⟨o.ono, sel, false, v, .zero, []⟩

/-- The requests the typed setters build, each for an object of the setter's class. -/
inductive TypedSet (o : Obj) : SetReq → Prop
  | gain (h : o.kind = .gain) (db : F32) : TypedSet o (setNum o (toF64 db))
  | mute (h : o.kind = .mute) (muted : Bool) :
    TypedSet o (setNum o (.ofNat (if muted then 1 else 2)))
  | polarity (h : o.kind = .polarity) (inverted : Bool) :
    TypedSet o (setNum o (.ofNat (if inverted then 2 else 1)))
  | switch (h : o.kind = .switch) (pos : UInt16) : TypedSet o (setNum o (.ofNat pos.toNat))
  | delay (h : o.kind = .delay) (s : F64) : TypedSet o (setNum o s)
  | boolean (h : o.kind = .boolean) (v : Bool) : TypedSet o (setNum o (.ofNat (flag v).toNat))
  | float (h : o.kind = .float32) (v : F32) : TypedSet o (setNum o (toF64 v))
  | uint16 (h : o.kind = .uint16) (v : UInt16) : TypedSet o (setNum o (.ofNat v.toNat))
  | uint32 (h : o.kind = .uint32) (v : UInt32) : TypedSet o (setNum o (.ofNat v.toNat))
  | int32 (h : o.kind = .int32) (v : Int32) : TypedSet o (setNum o (.ofInt v.toInt))
  | string (h : o.kind = .string) (v : Bytes) :
    TypedSet o ⟨o.ono, .scalar, true, .zero, .zero, strlcpy 96 v⟩
  | levelSensor (h : o.kind = .levelSensor) (db : F32) : TypedSet o (setNum o (toF64 db))
  | frequency (h : o.kind = .frequency) (hz : F32) : TypedSet o (setNum o (toF64 hz))
  | temperature (h : o.kind = .temperature) (c : F32) : TypedSet o (setNum o (toF64 c))
  | identify (h : o.kind = .identify) (active : Bool) :
    TypedSet o (setNum o (.ofNat (flag active).toNat))
  | dynFunction (h : o.kind = .dynamics) (f : UInt8) :
    TypedSet o (dspPost o .dynFunction (.ofNat f.toNat))
  | dynFloat (h : o.kind = .dynamics) {sel : Sel}
    (hs : sel ∈ [.dynThreshold, .dynRatio, .dynAttack, .dynRelease, .dynDynamicGain]) (v : F32) :
    TypedSet o (dspPost o sel (toF64 v))
  | dynTriggered (h : o.kind = .dynamics) (t : Bool) :
    TypedSet o (dspPost o .dynTriggered (.ofNat (flag t).toNat))
  | fltFrequency (h : o.kind = .filterClassical) (hz : F32) :
    TypedSet o (dspPost o .fltFrequency (toF64 hz))
  | fltByte (h : o.kind = .filterClassical) {sel : Sel} (hs : sel ∈ [.fltPassband, .fltShape])
    (v : UInt8) : TypedSet o (dspPost o sel (.ofNat v.toNat))
  | fltOrder (h : o.kind = .filterClassical) (n : UInt16) :
    TypedSet o (dspPost o .fltOrder (.ofNat n.toNat))
  | peqFloat (h : o.kind = .filterParametric) {sel : Sel}
    (hs : sel ∈ [.peqFrequency, .peqInbandGain, .peqWidth]) (v : F32) :
    TypedSet o (dspPost o sel (toF64 v))
  | peqShape (h : o.kind = .filterParametric) (shape : UInt8) :
    TypedSet o (dspPost o .peqShape (.ofNat shape.toNat))
  | panPosition (h : o.kind = .panBalance) (pos : F32) :
    TypedSet o (dspPost o .panPosition (toF64 pos))
  | sigFloat (h : o.kind = .signalGen) {sel : Sel} (hs : sel ∈ [.sigFreq1, .sigLevel]) (v : F32) :
    TypedSet o (dspPost o sel (toF64 v))
  | sigWaveform (h : o.kind = .signalGen) (w : UInt8) :
    TypedSet o (dspPost o .sigWaveform (.ofNat w.toNat))
  | sigGenerating (h : o.kind = .signalGen) (on : Bool) :
    TypedSet o (dspPost o .sigGenerating (.ofNat (flag on).toNat))

namespace Device

/-- `aes70_post_set`: queue a request, if the device runs and the queue of 16 has room. -/
def postSet (d : Device K) (req : SetReq) : Device K :=
  if d.running && decide (d.cmdQ.length < 16) then { d with cmdQ := d.cmdQ ++ [req] } else d

/-- The clamping of `aes70_object_apply_set`. -/
def clampSet (o : Obj) (v : F64) : F64 :=
  match o.kind with
  | .gain | .delay | .float32 | .int32 | .uint16 | .uint32 | .levelSensor | .temperature
  | .frequency =>
    let v := if v.lt o.numMin then o.numMin else v
    if o.numMax.lt v then o.numMax else v
  | .switch =>
    let v := if v.lt .zero then .zero else v
    let last : F64 := .ofInt (o.swCount.toNat - 1)
    if o.swCount ≠ 0 ∧ last.lt v then last else v
  | _ => v

/-- `aes70_object_apply_set`. -/
def applySet (d : Device K) (req : SetReq) : Device K :=
  match d.find req.ono with
  | none => d
  | some i =>
    let o := d.obj i
    if dspIsDspKind o.kind then d.dspApplySet i req else
      match primaryProperty o.kind with
      | none => d
      | some (level, index) =>
        if req.isString then d.commitStr i req.str level index false
        else d.commitNum i (clampSet o req.num) level index false

/-- `drain_cmd_queue`. -/
def drainCmdQueue (d : Device K) : Device K :=
  d.cmdQ.foldl applySet { d with cmdQ := [] }

end Device

end Aes70
