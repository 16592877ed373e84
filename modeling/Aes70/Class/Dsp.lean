import Aes70.Class.Handler

/-!
# The DSP classes

The multi-parameter classes of `aes70_dsp.c`: OcaDynamics, OcaFilterClassical,
OcaFilterParametric, OcaPanBalance and OcaSignalGenerator. A parameter is written through a
selector, by controllers and by the application alike; the write stores, notifies and, for a
controller, calls back. `DspMethod` lists the shapes of their methods, for what is the same for all
of them.
-/

namespace Aes70

open Handler

variable {K : Kconfig}

/-! ### Initial states -/

/-- A `float` literal of the source with an integer value. -/
def f32 (z : ℤ) : F32 := .ofInt z

/-- `0.01f`. -/
def f32Hundredth : F32 := ⟨0x3C23D70A#32⟩

/-- `0.0001f`. -/
def f32TenThousandth : F32 := ⟨0x38D1B717#32⟩

/-- `0.1f`. -/
def f32Tenth : F32 := ⟨0x3DCCCCCD#32⟩

/-- `0.001f`. -/
def f32Thousandth : F32 := ⟨0x3A83126F#32⟩

/-- The dynamics state `aes70_dsp_init` allocates. -/
def DynState.init : DynState where
  function := 1
  detectorLaw := 2
  thresholdUnits := 0
  threshold := f32 (-20)
  thresholdRef := f32 0
  thresholdMin := f32 (-60)
  thresholdMax := f32 0
  ratio := f32 4
  ratioMin := f32 1
  ratioMax := f32 20
  attack := f32Hundredth
  attackMin := f32TenThousandth
  attackMax := f32 1
  release := f32Tenth
  releaseMin := f32Thousandth
  releaseMax := f32 5
  hold := f32 0
  holdMin := f32 0
  holdMax := f32 5
  knee := f32 0
  kneeMin := f32 0
  kneeMax := f32 20
  gainFloor := f32 (-40)
  gainFloorMin := f32 (-80)
  gainFloorMax := f32 0
  gainCeiling := f32 0
  gainCeilingMin := f32 (-40)
  gainCeilingMax := f32 24
  dynamicGain := .zero
  triggered := false

/-- The classical filter state `aes70_dsp_init` allocates. -/
def FltState.init : FltState where
  frequency := f32 1000
  frequencyMin := f32 20
  frequencyMax := f32 20000
  passband := 2
  shape := 1
  order := 2
  orderMin := 1
  orderMax := 8
  parameter := f32 0
  parameterMin := f32 0
  parameterMax := f32 10

/-- The parametric filter state `aes70_dsp_init` allocates. -/
def PeqState.init : PeqState where
  frequency := f32 1000
  frequencyMin := f32 20
  frequencyMax := f32 20000
  shape := 1
  width := f32 1
  widthMin := f32Tenth
  widthMax := f32 20
  inbandGain := f32 0
  inbandMin := f32 (-18)
  inbandMax := f32 18
  shapeParam := f32 0
  shapeParamMin := f32 0
  shapeParamMax := f32 1

/-- The pan state `aes70_dsp_init` allocates. -/
def PanState.init : PanState where
  position := f32 0
  positionMin := f32 (-1)
  positionMax := f32 1
  midpointGain := f32 0
  midpointMin := f32 (-12)
  midpointMax := f32 12

/-- The generator state `aes70_dsp_init` allocates. -/
def SigState.init : SigState where
  freq1 := f32 1000
  freq1Min := f32 20
  freq1Max := f32 20000
  freq2 := f32 1000
  freq2Min := f32 20
  freq2Max := f32 20000
  level := f32 (-20)
  levelMin := f32 (-80)
  levelMax := f32 0
  waveform := 2
  sweepType := 0
  sweepTime := f32 1
  sweepTimeMin := f32Tenth
  sweepTimeMax := f32 60
  sweepRepeat := false
  generating := false

/-- `aes70_dsp_init`: the private state of a fresh object. -/
def dspInit : Kind → Priv
  | .dynamics => .dynamics .init
  | .filterClassical => .filter .init
  | .filterParametric => .peq .init
  | .panBalance => .pan .init
  | .signalGen => .siggen .init
  | _ => .null

/-! ### Parameter writes -/

/-- `sel_to_prop`. -/
def selToProp : Sel → UInt16 × UInt16
  | .dynTriggered | .fltFrequency | .peqFrequency | .panPosition | .sigFreq1 => (4, 1)
  | .dynDynamicGain | .fltPassband | .peqShape | .panMidpointGain | .sigFreq2 => (4, 2)
  | .dynFunction | .fltShape | .peqWidth | .sigLevel => (4, 3)
  | .dynRatio | .fltOrder | .peqInbandGain | .sigWaveform => (4, 4)
  | .dynThreshold | .fltParameter | .peqShapeParam | .sigSweepType => (4, 5)
  | .dynThresholdUnits | .sigSweepTime => (4, 6)
  | .dynDetectorLaw | .sigSweepRepeat => (4, 7)
  | .dynAttack | .sigGenerating => (4, 8)
  | .dynRelease => (4, 9)
  | .dynHold => (4, 10)
  | .dynGainCeiling => (4, 11)
  | .dynGainFloor => (4, 12)
  | .dynKnee => (4, 13)
  | .dynSlope => (4, 14)
  | .scalar => (4, 0)

/-- The stores of `dyn_write`. -/
def DynState.write (s : DynState) (sel : Sel) (v v2 : F64) : DynState :=
  match sel with
  | .dynFunction => { s with function := toU8 v }
  | .dynDetectorLaw => { s with detectorLaw := toU8 v }
  | .dynThresholdUnits => { s with thresholdUnits := toU8 v }
  | .dynThreshold => { s with threshold := toF32 v, thresholdRef := toF32 v2 }
  | .dynRatio | .dynSlope => { s with ratio := toF32 v }
  | .dynAttack => { s with attack := toF32 v }
  | .dynRelease => { s with release := toF32 v }
  | .dynHold => { s with hold := toF32 v }
  | .dynKnee => { s with knee := toF32 v }
  | .dynGainFloor => { s with gainFloor := toF32 v }
  | .dynGainCeiling => { s with gainCeiling := toF32 v }
  | .dynDynamicGain => { s with dynamicGain := toF32 v }
  | .dynTriggered => { s with triggered := isNonzero v }
  | _ => s

/-- The stores of `flt_write`. -/
def FltState.write (s : FltState) (sel : Sel) (v : F64) : FltState :=
  match sel with
  | .fltFrequency => { s with frequency := toF32 v }
  | .fltPassband => { s with passband := toU8 v }
  | .fltShape => { s with shape := toU8 v }
  | .fltOrder => { s with order := toU16 v }
  | .fltParameter => { s with parameter := toF32 v }
  | _ => s

/-- The stores of `peq_write`. -/
def PeqState.write (s : PeqState) (sel : Sel) (v : F64) : PeqState :=
  match sel with
  | .peqFrequency => { s with frequency := toF32 v }
  | .peqShape => { s with shape := toU8 v }
  | .peqWidth => { s with width := toF32 v }
  | .peqInbandGain => { s with inbandGain := toF32 v }
  | .peqShapeParam => { s with shapeParam := toF32 v }
  | _ => s

/-- The stores of `pan_write`. -/
def PanState.write (s : PanState) (sel : Sel) (v : F64) : PanState :=
  match sel with
  | .panPosition => { s with position := toF32 v }
  | .panMidpointGain => { s with midpointGain := toF32 v }
  | _ => s

/-- The stores of `sig_write`. -/
def SigState.write (s : SigState) (sel : Sel) (v : F64) : SigState :=
  match sel with
  | .sigFreq1 => { s with freq1 := toF32 v }
  | .sigFreq2 => { s with freq2 := toF32 v }
  | .sigLevel => { s with level := toF32 v }
  | .sigWaveform => { s with waveform := toU8 v }
  | .sigSweepType => { s with sweepType := toU8 v }
  | .sigSweepTime => { s with sweepTime := toF32 v }
  | .sigSweepRepeat => { s with sweepRepeat := isNonzero v }
  | .sigGenerating => { s with generating := isNonzero v }
  | _ => s

namespace Device

/-- `notify_after_write`. -/
def notifyAfterWrite (d : Device K) (i : ObjRef) (sel : Sel) (fromCtrl : Bool) : Device K :=
  let d := d.notify i (selToProp sel).1 (selToProp sel).2
  if fromCtrl then d.controlChanged i else d

/-- What the five parameter writes share: store the private state, then `notify_after_write`. -/
def dspWrite (d : Device K) (i : ObjRef) (p : Priv) (sel : Sel) (fromCtrl : Bool) : Device K :=
  (d.modifyObj i fun o => { o with priv := p }).notifyAfterWrite i sel fromCtrl

/-- `dyn_write`. -/
def dynWrite (d : Device K) (i : ObjRef) (sel : Sel) (v v2 : F64) (fromCtrl : Bool) : Device K :=
  match (d.obj i).priv with
  | .dynamics s => d.dspWrite i (.dynamics (s.write sel v v2)) sel fromCtrl
  | _ => d

/-- `flt_write`. -/
def fltWrite (d : Device K) (i : ObjRef) (sel : Sel) (v : F64) (fromCtrl : Bool) : Device K :=
  match (d.obj i).priv with
  | .filter s => d.dspWrite i (.filter (s.write sel v)) sel fromCtrl
  | _ => d

/-- `peq_write`. -/
def peqWrite (d : Device K) (i : ObjRef) (sel : Sel) (v : F64) (fromCtrl : Bool) : Device K :=
  match (d.obj i).priv with
  | .peq s => d.dspWrite i (.peq (s.write sel v)) sel fromCtrl
  | _ => d

/-- `pan_write`. -/
def panWrite (d : Device K) (i : ObjRef) (sel : Sel) (v : F64) (fromCtrl : Bool) : Device K :=
  match (d.obj i).priv with
  | .pan s => d.dspWrite i (.pan (s.write sel v)) sel fromCtrl
  | _ => d

/-- `sig_write`. -/
def sigWrite (d : Device K) (i : ObjRef) (sel : Sel) (v : F64) (fromCtrl : Bool) : Device K :=
  match (d.obj i).priv with
  | .siggen s => d.dspWrite i (.siggen (s.write sel v)) sel fromCtrl
  | _ => d

/-- `d'` is `d` after the write of a parameter, or `d` itself where the private state is of another
class. -/
def DspWrites (d : Device K) (i : ObjRef) (sel : Sel) (fromCtrl : Bool) (d' : Device K) : Prop :=
  d' = d ∨ ∃ p, d' = d.dspWrite i p sel fromCtrl

section Writes

variable (d : Device K) (i : ObjRef) (sel : Sel) (v v2 : F64) (b : Bool)

theorem dspWrites_dynWrite : d.DspWrites i sel b (d.dynWrite i sel v v2 b) := by
  unfold dynWrite
  split
  · exact .inr ⟨_, rfl⟩
  · exact .inl rfl

theorem dspWrites_fltWrite : d.DspWrites i sel b (d.fltWrite i sel v b) := by
  unfold fltWrite
  split
  · exact .inr ⟨_, rfl⟩
  · exact .inl rfl

theorem dspWrites_peqWrite : d.DspWrites i sel b (d.peqWrite i sel v b) := by
  unfold peqWrite
  split
  · exact .inr ⟨_, rfl⟩
  · exact .inl rfl

theorem dspWrites_panWrite : d.DspWrites i sel b (d.panWrite i sel v b) := by
  unfold panWrite
  split
  · exact .inr ⟨_, rfl⟩
  · exact .inl rfl

theorem dspWrites_sigWrite : d.DspWrites i sel b (d.sigWrite i sel v b) := by
  unfold sigWrite
  split
  · exact .inr ⟨_, rfl⟩
  · exact .inl rfl

end Writes

/-- `aes70_dsp_apply_set`. -/
def dspApplySet (d : Device K) (i : ObjRef) (req : SetReq) : Device K :=
  match (d.obj i).kind with
  | .dynamics => d.dynWrite i req.sel req.num req.num2 false
  | .filterClassical => d.fltWrite i req.sel req.num false
  | .filterParametric => d.peqWrite i req.sel req.num false
  | .panBalance => d.panWrite i req.sel req.num false
  | .signalGen => d.sigWrite i req.sel req.num false
  | _ => d

end Device

/-! ### Method dispatch -/

/-- The getter of a parameter with a range: value, minimum, maximum. -/
def getRange (v lo hi : F32) : Handler K := reply 3 [.f32 v, .f32 lo, .f32 hi]

/-- A setter of an enumerated parameter: `write` gets the byte received. -/
def setByte (write : Device K → F64 → Device K) : Handler K :=
  reading Read.u8 fun v => store fun d => write d (.ofNat v.toNat)

/-- A setter of a `float` parameter without a range check. -/
def setFloat (write : Device K → F64 → Device K) : Handler K :=
  reading Read.f32 fun v => store fun d => write d (toF64 v)

/-- A setter of a `float` parameter with a range check. -/
def setFloatIn (lo hi : F32) (write : Device K → F64 → Device K) : Handler K :=
  reading Read.f32 fun v => ranged v lo hi (store fun d => write d (toF64 v))

/-- `aes70_dynamics_dispatch`: OcaDynamics, level 4. -/
def dynamicsDispatch (i : ObjRef) (idx : UInt16) : Handler K := look fun d =>
  let write (sel : Sel) (d : Device K) (v : F64) := d.dynWrite i sel v .zero true
  match (d.obj i).priv with
  | .dynamics s =>
    match idx with
    | 1 => reply 1 [.u8 (flag s.triggered)]
    | 2 => reply 1 [.f32 s.dynamicGain]
    | 3 => reply 1 [.u8 s.function]
    | 4 => setByte (write .dynFunction)
    | 5 => getRange s.ratio s.ratioMin s.ratioMax
    | 6 => setFloatIn s.ratioMin s.ratioMax (write .dynRatio)
    | 7 => reply 3 [.f32 s.threshold, .f32 s.thresholdRef, .f32 s.thresholdMin, .f32 s.thresholdMax]
    | 8 =>
      reading (do return (← Read.f32, ← Read.f32)) fun (v, ref) =>
        ranged v s.thresholdMin s.thresholdMax
          (store fun d => d.dynWrite i .dynThreshold (toF64 v) (toF64 ref) true)
    | 9 => reply 1 [.u8 s.thresholdUnits]
    | 10 => setByte (write .dynThresholdUnits)
    | 11 => reply 1 [.u8 s.detectorLaw]
    | 12 => setByte (write .dynDetectorLaw)
    | 13 => getRange s.attack s.attackMin s.attackMax
    | 14 => setFloatIn s.attackMin s.attackMax (write .dynAttack)
    | 15 => getRange s.release s.releaseMin s.releaseMax
    | 16 => setFloatIn s.releaseMin s.releaseMax (write .dynRelease)
    | 17 => getRange s.hold s.holdMin s.holdMax
    | 18 => setFloat (write .dynHold)
    | 19 => getRange s.gainFloor s.gainFloorMin s.gainFloorMax
    | 20 => setFloat (write .dynGainFloor)
    | 21 => getRange s.gainCeiling s.gainCeilingMin s.gainCeilingMax
    | 22 => setFloat (write .dynGainCeiling)
    | 23 => getRange s.knee s.kneeMin s.kneeMax
    | 24 => setFloatIn s.kneeMin s.kneeMax (write .dynKnee)
    | 25 => getRange s.ratio s.ratioMin s.ratioMax
    | 26 => setFloat (write .dynSlope)
    | 27 => ret .notImplemented
    | _ => ret .badMethod
  | _ => ret .deviceError

/-- `aes70_filter_dispatch`: OcaFilterClassical, level 4. -/
def filterDispatch (i : ObjRef) (idx : UInt16) : Handler K := look fun d =>
  let write (sel : Sel) (d : Device K) (v : F64) := d.fltWrite i sel v true
  match (d.obj i).priv with
  | .filter s =>
    match idx with
    | 1 => getRange s.frequency s.frequencyMin s.frequencyMax
    | 2 => setFloatIn s.frequencyMin s.frequencyMax (write .fltFrequency)
    | 3 => reply 1 [.u8 s.passband]
    | 4 => setByte (write .fltPassband)
    | 5 => reply 1 [.u8 s.shape]
    | 6 => setByte (write .fltShape)
    | 7 => reply 3 [.u16 s.order, .u16 s.orderMin, .u16 s.orderMax]
    | 8 =>
      reading Read.u16 fun o =>
        if o < s.orderMin ∨ s.orderMax < o then ret .parameterOutOfRange
        else store fun d => write .fltOrder d (.ofNat o.toNat)
    | 9 => getRange s.parameter s.parameterMin s.parameterMax
    | 10 => setFloat (write .fltParameter)
    | 11 => ret .notImplemented
    | _ => ret .badMethod
  | _ => ret .deviceError

/-- `aes70_peq_dispatch`: OcaFilterParametric, level 4. -/
def peqDispatch (i : ObjRef) (idx : UInt16) : Handler K := look fun d =>
  let write (sel : Sel) (d : Device K) (v : F64) := d.peqWrite i sel v true
  match (d.obj i).priv with
  | .peq s =>
    match idx with
    | 1 => getRange s.frequency s.frequencyMin s.frequencyMax
    | 2 => setFloatIn s.frequencyMin s.frequencyMax (write .peqFrequency)
    | 3 => reply 1 [.u8 s.shape]
    | 4 => setByte (write .peqShape)
    | 5 => getRange s.width s.widthMin s.widthMax
    | 6 => setFloat (write .peqWidth)
    | 7 => getRange s.inbandGain s.inbandMin s.inbandMax
    | 8 => setFloatIn s.inbandMin s.inbandMax (write .peqInbandGain)
    | 9 => getRange s.shapeParam s.shapeParamMin s.shapeParamMax
    | 10 => setFloat (write .peqShapeParam)
    | 11 => ret .notImplemented
    | _ => ret .badMethod
  | _ => ret .deviceError

/-- `aes70_pan_dispatch`: OcaPanBalance, level 4. -/
def panDispatch (i : ObjRef) (idx : UInt16) : Handler K := look fun d =>
  let write (sel : Sel) (d : Device K) (v : F64) := d.panWrite i sel v true
  match (d.obj i).priv with
  | .pan s =>
    match idx with
    | 1 => getRange s.position s.positionMin s.positionMax
    | 2 => setFloatIn s.positionMin s.positionMax (write .panPosition)
    | 3 => getRange s.midpointGain s.midpointMin s.midpointMax
    | 4 => setFloat (write .panMidpointGain)
    | _ => ret .badMethod
  | _ => ret .deviceError

/-- `aes70_siggen_dispatch`: OcaSignalGenerator, level 4. -/
def siggenDispatch (i : ObjRef) (idx : UInt16) : Handler K := look fun d =>
  let write (sel : Sel) (d : Device K) (v : F64) := d.sigWrite i sel v true
  match (d.obj i).priv with
  | .siggen s =>
    match idx with
    | 1 => getRange s.freq1 s.freq1Min s.freq1Max
    | 2 => setFloatIn s.freq1Min s.freq1Max (write .sigFreq1)
    | 3 => getRange s.freq2 s.freq2Min s.freq2Max
    | 4 => setFloatIn s.freq2Min s.freq2Max (write .sigFreq2)
    | 5 => getRange s.level s.levelMin s.levelMax
    | 6 => setFloatIn s.levelMin s.levelMax (write .sigLevel)
    | 7 => reply 1 [.u8 s.waveform]
    | 8 => setByte (write .sigWaveform)
    | 9 => reply 1 [.u8 s.sweepType]
    | 10 => setByte (write .sigSweepType)
    | 11 => getRange s.sweepTime s.sweepTimeMin s.sweepTimeMax
    | 12 => setFloat (write .sigSweepTime)
    | 13 => reply 1 [.u8 (flag s.sweepRepeat)]
    | 14 => setByte (write .sigSweepRepeat)
    | 15 => reply 1 [.u8 (flag s.generating)]
    | 16 => store fun d => write .sigGenerating d (.ofNat 1) -- Start
    | 17 => store fun d => write .sigGenerating d (.ofNat 0) -- Stop
    | 18 => ret .notImplemented
    | _ => ret .badMethod
  | _ => ret .deviceError

/-! ### The shapes of the methods -/

/-- A method of a DSP class: it looks at the device, reads a parameter, checks it, and replies or
writes a parameter of object `i`. -/
inductive DspMethod (i : ObjRef) : Handler K → Prop
  | ret (st : Status) : DspMethod i (ret st)
  | reply (n : UInt8) (fs : List Field) : DspMethod i (reply n fs)
  | store {sel : Sel} {f : Device K → Device K}
    (hf : ∀ d : Device K, d.DspWrites i sel true (f d)) : DspMethod i (store f)
  | look {f : Device K → Handler K} (hf : ∀ d, DspMethod i (f d)) : DspMethod i (look f)
  | ranged {e m : ℕ} {v lo hi : Ieee.Binary e m} {h : Handler K} (hh : DspMethod i h) :
    DspMethod i (ranged v lo hi h)
  | ite {p : Prop} [Decidable p] {h k : Handler K} (hh : DspMethod i h) (hk : DspMethod i k) :
    DspMethod i (if p then h else k)
  | byte {k : UInt8 → Handler K} (hk : ∀ v, DspMethod i (k v)) : DspMethod i (reading Read.u8 k)
  | word {k : UInt16 → Handler K} (hk : ∀ v, DspMethod i (k v)) : DspMethod i (reading Read.u16 k)
  | float {k : F32 → Handler K} (hk : ∀ v, DspMethod i (k v)) : DspMethod i (reading Read.f32 k)
  | dbr {k : F32 × F32 → Handler K} (hk : ∀ a, DspMethod i (k a)) :
    DspMethod i (reading (do return (← Read.f32, ← Read.f32)) k)

section Shapes

variable {i : ObjRef} {idx : UInt16}

section Setters

variable {write : Device K → F64 → Device K} {sel : Sel}
  (hw : ∀ (d : Device K) v, d.DspWrites i sel true (write d v))
include hw

theorem setByte_dspMethod : DspMethod i (setByte write) := .byte fun _ => .store fun d => hw d _

theorem setFloat_dspMethod : DspMethod i (setFloat write) := .float fun _ => .store fun d => hw d _

theorem setFloatIn_dspMethod (lo hi : F32) : DspMethod i (setFloatIn lo hi write) :=
  .float fun _ => .ranged (.store fun d => hw d _)

end Setters

theorem dynamicsDispatch_dspMethod : DspMethod i (dynamicsDispatch (K := K) i idx) := by
  have hw (sel : Sel) (v2 : F64) (d : Device K) (v : F64) :
      d.DspWrites i sel true (d.dynWrite i sel v v2 true) := d.dspWrites_dynWrite ..
  refine .look fun d => ?_
  dsimp only
  split
  · split
    case h_8 => exact .dbr fun a => .ranged (.store fun d => hw _ (toF64 a.2) d (toF64 a.1))
    all_goals first
      | exact .reply _ _
      | exact setByte_dspMethod (hw _ _)
      | exact setFloat_dspMethod (hw _ _)
      | exact setFloatIn_dspMethod (hw _ _) _ _
      | exact .ret _
  · exact .ret _

theorem filterDispatch_dspMethod : DspMethod i (filterDispatch (K := K) i idx) := by
  have hw (sel : Sel) (d : Device K) (v : F64) :
      d.DspWrites i sel true (d.fltWrite i sel v true) := d.dspWrites_fltWrite ..
  refine .look fun d => ?_
  dsimp only
  split
  · split
    case h_8 => exact .word fun o => .ite (.ret _) (.store fun d => hw _ d _)
    all_goals first
      | exact .reply _ _
      | exact setByte_dspMethod (hw _)
      | exact setFloat_dspMethod (hw _)
      | exact setFloatIn_dspMethod (hw _) _ _
      | exact .ret _
  · exact .ret _

theorem peqDispatch_dspMethod : DspMethod i (peqDispatch (K := K) i idx) := by
  have hw (sel : Sel) (d : Device K) (v : F64) :
      d.DspWrites i sel true (d.peqWrite i sel v true) := d.dspWrites_peqWrite ..
  refine .look fun d => ?_
  dsimp only
  split
  · split
    all_goals first
      | exact .reply _ _
      | exact setByte_dspMethod (hw _)
      | exact setFloat_dspMethod (hw _)
      | exact setFloatIn_dspMethod (hw _) _ _
      | exact .ret _
  · exact .ret _

theorem panDispatch_dspMethod : DspMethod i (panDispatch (K := K) i idx) := by
  have hw (sel : Sel) (d : Device K) (v : F64) :
      d.DspWrites i sel true (d.panWrite i sel v true) := d.dspWrites_panWrite ..
  refine .look fun d => ?_
  dsimp only
  split
  · split
    · exact .reply _ _
    · exact setFloatIn_dspMethod (hw _) _ _
    · exact .reply _ _
    · exact setFloat_dspMethod (hw _)
    · exact .ret _
  · exact .ret _

theorem siggenDispatch_dspMethod : DspMethod i (siggenDispatch (K := K) i idx) := by
  have hw (sel : Sel) (d : Device K) (v : F64) :
      d.DspWrites i sel true (d.sigWrite i sel v true) := d.dspWrites_sigWrite ..
  refine .look fun d => ?_
  dsimp only
  split
  · split
    all_goals first
      | exact .reply _ _
      | exact setByte_dspMethod (hw _)
      | exact setFloat_dspMethod (hw _)
      | exact setFloatIn_dspMethod (hw _) _ _
      | exact .store fun d => hw _ d _
      | exact .ret _
  · exact .ret _

end Shapes

end Aes70
