import Aes70.Router.Frame
import Aes70.Security.Setting

/-!
# What a DSP method stores

A method of a DSP class writes one parameter, through the selector of the parameter, if it accepts
the value. Which one and what value depends on the object, the method and the parameters only.

* `ParamWrite` : a parameter write, a selector and the values for it.
* `Priv.write` : its effect on the private state.
* `dspSetting` : the write that a level-4 method makes, `none` when it makes none.
* `dspDispatch_writesAt` : the DSP handlers make the write `dspSetting` says.
-/

namespace Aes70

open Handler

variable {K : Kconfig}

/-- The arguments of a parameter write; `ref` is the `OcaDBr` reference, 0 for most. -/
structure ParamWrite where
  sel : Sel
  value : F64
  ref : F64
deriving DecidableEq

/-- The private state after a parameter write. -/
def Priv.write (p : Priv) (w : ParamWrite) : Priv :=
  match p with
  | .dynamics s => .dynamics (s.write w.sel w.value w.ref)
  | .filter s => .filter (s.write w.sel w.value)
  | .peq s => .peq (s.write w.sel w.value)
  | .pan s => .pan (s.write w.sel w.value)
  | .siggen s => .siggen (s.write w.sel w.value)
  | p => p

/-! ### The property a write is notified as -/

/-- The write stores a new ratio, the field that the ratio and the slope of OcaDynamics share. -/
def Priv.movesRatio (p : Priv) (w : ParamWrite) : Prop :=
  match p with
  | .dynamics s => (w.sel = .dynRatio ∨ w.sel = .dynSlope) ∧ toF32 w.value ≠ s.ratio
  | _ => False

instance (p : Priv) (w : ParamWrite) : Decidable (p.movesRatio w) := by
  unfold Priv.movesRatio
  split <;> infer_instance

/-- The write changes `prop`, the ratio or the slope, but is notified as the other one of them. -/
def Priv.movesBeside (p : Priv) (w : ParamWrite) (prop : UInt16 × UInt16) : Prop :=
  p.movesRatio w ∧ (prop = (4, 4) ∨ prop = (4, 14)) ∧ prop ≠ selToProp w.sel

section Property

variable {sel : Sel} {v v2 : F64} {index : UInt16} (h : selToProp sel ≠ (4, index))
include h

theorem DynState.property_write {s : DynState}
    (hr : sel = .dynRatio ∨ sel = .dynSlope → toF32 v = s.ratio ∨ index ≠ 4 ∧ index ≠ 14) :
    (s.write sel v v2).property index = s.property index := by
  unfold property
  cases sel <;> simp only [selToProp, ne_eq, Prod.mk.injEq, true_and] at h <;> try rfl
  all_goals split <;> simp_all [write]

theorem FltState.property_write (s : FltState) :
    (s.write sel v).property index = s.property index := by
  unfold property
  cases sel <;> simp only [selToProp, ne_eq, Prod.mk.injEq, true_and] at h <;> try rfl
  all_goals split <;> simp_all [write]

theorem PeqState.property_write (s : PeqState) :
    (s.write sel v).property index = s.property index := by
  unfold property
  cases sel <;> simp only [selToProp, ne_eq, Prod.mk.injEq, true_and] at h <;> try rfl
  all_goals split <;> simp_all [write]

theorem PanState.property_write (s : PanState) :
    (s.write sel v).property index = s.property index := by
  unfold property
  cases sel <;> simp only [selToProp, ne_eq, Prod.mk.injEq, true_and] at h <;> try rfl
  all_goals split <;> simp_all [write]

theorem SigState.property_write (s : SigState) :
    (s.write sel v).property index = s.property index := by
  unfold property
  cases sel <;> simp only [selToProp, ne_eq, Prod.mk.injEq, true_and] at h <;> try rfl
  all_goals split <;> simp_all [write]

end Property

/-- **A write changes no property but the one it is notified as**, unless it moves the ratio. -/
theorem dspEncodeProperty_write {o : Obj} {w : ParamWrite} {level index : UInt16}
    (h : selToProp w.sel ≠ (level, index)) (hr : ¬o.priv.movesBeside w (level, index)) :
    dspEncodeProperty { o with priv := o.priv.write w } level index =
      dspEncodeProperty o level index := by
  unfold dspEncodeProperty
  split_ifs with hl
  · rfl
  obtain rfl : level = 4 := not_not.mp hl
  cases hp : o.priv with
  | dynamics s =>
    have hratio : w.sel = .dynRatio ∨ w.sel = .dynSlope →
        toF32 w.value = s.ratio ∨ index ≠ 4 ∧ index ≠ 14 := by
      intro hsel
      by_contra! hne
      refine hr ⟨by simpa [Priv.movesRatio, hp] using ⟨hsel, hne.1⟩, ?_, Ne.symm h⟩
      by_cases h4 : index = 4
      · exact .inl (by rw [h4])
      · exact .inr (by rw [hne.2 h4])
    cases o.kind <;> simp only [Priv.write, DynState.property_write h hratio]
  | filter s => cases o.kind <;> simp only [Priv.write, FltState.property_write h]
  | peq s => cases o.kind <;> simp only [Priv.write, PeqState.property_write h]
  | pan s => cases o.kind <;> simp only [Priv.write, PanState.property_write h]
  | siggen s => cases o.kind <;> simp only [Priv.write, SigState.property_write h]
  | _ => rfl

/-! ### The write of a method -/

/-- The write made of what the accessor `r` reads, unless the parameters are too short or it is
`bad`. -/
def acceptedWrite {α : Type} (r : Read α) (bad : α → Bool) (w : α → ParamWrite) (rd : Reader) :
    Option ParamWrite :=
  let (a, rd) := r rd
  if rd.err || bad a then none else some (w a)

/-- The write of `setByte`. -/
def byteWrite (sel : Sel) : Reader → Option ParamWrite :=
  acceptedWrite Read.u8 (fun _ => false) fun v => ⟨sel, .ofNat v.toNat, .zero⟩

/-- The write of `setFloat`. -/
def floatWrite (sel : Sel) : Reader → Option ParamWrite :=
  acceptedWrite Read.f32 (fun _ => false) fun v => ⟨sel, toF64 v, .zero⟩

/-- The write of `setFloatIn`. -/
def rangedWrite (lo hi : F32) (sel : Sel) : Reader → Option ParamWrite :=
  acceptedWrite Read.f32 (fun v => v.lt lo || hi.lt v) fun v => ⟨sel, toF64 v, .zero⟩

/-- The write of SetThreshold, with its reference. -/
def thresholdWrite (lo hi : F32) : Reader → Option ParamWrite :=
  acceptedWrite (do return (← Read.f32, ← Read.f32)) (fun a => a.1.lt lo || hi.lt a.1)
    fun a => ⟨.dynThreshold, toF64 a.1, toF64 a.2⟩

/-- The write of SetOrder. -/
def orderWrite (lo hi : UInt16) : Reader → Option ParamWrite :=
  acceptedWrite Read.u16 (fun o => decide (o < lo ∨ hi < o)) fun o => ⟨.fltOrder, .ofNat o.toNat, .zero⟩

/-- The write of the method `idx` of OcaDynamics. -/
def DynState.setting (s : DynState) (idx : UInt16) (rd : Reader) : Option ParamWrite :=
  match idx with
  | 4 => byteWrite .dynFunction rd
  | 6 => rangedWrite s.ratioMin s.ratioMax .dynRatio rd
  | 8 => thresholdWrite s.thresholdMin s.thresholdMax rd
  | 10 => byteWrite .dynThresholdUnits rd
  | 12 => byteWrite .dynDetectorLaw rd
  | 14 => rangedWrite s.attackMin s.attackMax .dynAttack rd
  | 16 => rangedWrite s.releaseMin s.releaseMax .dynRelease rd
  | 18 => floatWrite .dynHold rd
  | 20 => floatWrite .dynGainFloor rd
  | 22 => floatWrite .dynGainCeiling rd
  | 24 => rangedWrite s.kneeMin s.kneeMax .dynKnee rd
  | 26 => floatWrite .dynSlope rd
  | _ => none

/-- The write of the method `idx` of OcaFilterClassical. -/
def FltState.setting (s : FltState) (idx : UInt16) (rd : Reader) : Option ParamWrite :=
  match idx with
  | 2 => rangedWrite s.frequencyMin s.frequencyMax .fltFrequency rd
  | 4 => byteWrite .fltPassband rd
  | 6 => byteWrite .fltShape rd
  | 8 => orderWrite s.orderMin s.orderMax rd
  | 10 => floatWrite .fltParameter rd
  | _ => none

/-- The write of the method `idx` of OcaFilterParametric. -/
def PeqState.setting (s : PeqState) (idx : UInt16) (rd : Reader) : Option ParamWrite :=
  match idx with
  | 2 => rangedWrite s.frequencyMin s.frequencyMax .peqFrequency rd
  | 4 => byteWrite .peqShape rd
  | 6 => floatWrite .peqWidth rd
  | 8 => rangedWrite s.inbandMin s.inbandMax .peqInbandGain rd
  | 10 => floatWrite .peqShapeParam rd
  | _ => none

/-- The write of the method `idx` of OcaPanBalance. -/
def PanState.setting (s : PanState) (idx : UInt16) (rd : Reader) : Option ParamWrite :=
  match idx with
  | 2 => rangedWrite s.positionMin s.positionMax .panPosition rd
  | 4 => floatWrite .panMidpointGain rd
  | _ => none

/-- The write of the method `idx` of OcaSignalGenerator. -/
def SigState.setting (s : SigState) (idx : UInt16) (rd : Reader) : Option ParamWrite :=
  match idx with
  | 2 => rangedWrite s.freq1Min s.freq1Max .sigFreq1 rd
  | 4 => rangedWrite s.freq2Min s.freq2Max .sigFreq2 rd
  | 6 => rangedWrite s.levelMin s.levelMax .sigLevel rd
  | 8 => byteWrite .sigWaveform rd
  | 10 => byteWrite .sigSweepType rd
  | 12 => floatWrite .sigSweepTime rd
  | 14 => byteWrite .sigSweepRepeat rd
  | 16 => some ⟨.sigGenerating, .ofNat 1, .zero⟩
  | 17 => some ⟨.sigGenerating, .ofNat 0, .zero⟩
  | _ => none

/-- The write that the level-4 method `idx` makes to a DSP object with these parameters. -/
def dspSetting (o : Obj) (idx : UInt16) (rd : Reader) : Option ParamWrite :=
  match o.kind, o.priv with
  | .dynamics, .dynamics s => s.setting idx rd
  | .filterClassical, .filter s => s.setting idx rd
  | .filterParametric, .peq s => s.setting idx rd
  | .panBalance, .pan s => s.setting idx rd
  | .signalGen, .siggen s => s.setting idx rd
  | _, _ => none

/-- The private state fits the kind of the DSP object, as `aes70_dsp_init` sets it up. -/
def Obj.dspState (o : Obj) : Bool :=
  match o.kind, o.priv with
  | .dynamics, .dynamics _ | .filterClassical, .filter _ | .filterParametric, .peq _
  | .panBalance, .pan _ | .signalGen, .siggen _ => true
  | _, _ => false

/-! ### The handlers -/

/-- Make a parameter write, if there is one. -/
def Device.param (d : Device K) (i : ObjRef) (fromCtrl : Bool) : Option ParamWrite → Device K
  | some w => d.dspWrite i ((d.obj i).priv.write w) w.sel fromCtrl
  | none => d

theorem Device.obj_param {d : Device K} {i : ObjRef} (hi : i < d.objects.length) (w : ParamWrite)
    (b : Bool) : (d.param i b (some w)).obj i =
      { d.obj i with priv := (d.obj i).priv.write w } := by
  rw [param, obj_eq_of_core (core_dspWrite d i _ w.sel b), obj_modifyObj_self hi]

namespace Device

section Writes

variable {d : Device K} {i : ObjRef}

theorem dynWrite_eq {s : DynState} (hp : (d.obj i).priv = .dynamics s) (sel : Sel) (v v2 : F64)
    (b : Bool) : d.dynWrite i sel v v2 b = d.param i b (some ⟨sel, v, v2⟩) := by
  simp only [dynWrite, param, hp, Priv.write]

theorem fltWrite_eq {s : FltState} (hp : (d.obj i).priv = .filter s) (sel : Sel) (v v2 : F64)
    (b : Bool) : d.fltWrite i sel v b = d.param i b (some ⟨sel, v, v2⟩) := by
  simp only [fltWrite, param, hp, Priv.write]

theorem peqWrite_eq {s : PeqState} (hp : (d.obj i).priv = .peq s) (sel : Sel) (v v2 : F64)
    (b : Bool) : d.peqWrite i sel v b = d.param i b (some ⟨sel, v, v2⟩) := by
  simp only [peqWrite, param, hp, Priv.write]

theorem panWrite_eq {s : PanState} (hp : (d.obj i).priv = .pan s) (sel : Sel) (v v2 : F64)
    (b : Bool) : d.panWrite i sel v b = d.param i b (some ⟨sel, v, v2⟩) := by
  simp only [panWrite, param, hp, Priv.write]

theorem sigWrite_eq {s : SigState} (hp : (d.obj i).priv = .siggen s) (sel : Sel) (v v2 : F64)
    (b : Bool) : d.sigWrite i sel v b = d.param i b (some ⟨sel, v, v2⟩) := by
  simp only [sigWrite, param, hp, Priv.write]

end Writes

end Device

/-- The call `c` of `h` makes this write to object `i`, if any. -/
def Handler.WritesAt (h : Handler K) (c : Call K) (i : ObjRef) (w : Option ParamWrite) : Prop :=
  (h c).2.dev = c.dev.param i true w

section Handlers

variable {i : ObjRef} {idx : UInt16} {c : Call K}

theorem writesAt_look {f : Device K → Handler K} {w : Option ParamWrite}
    (h : WritesAt (f c.dev) c i w) : WritesAt (look f) c i w := h

theorem writesAt_ret (st : Status) : WritesAt (ret st) c i none := rfl

theorem writesAt_reply (n : UInt8) (fs : List Field) : WritesAt (reply n fs) c i none := rfl

/-- A setter makes the write that it accepts. -/
theorem writesAt_reading {α : Type} {r : Read α} {bad : α → Bool} {w : α → ParamWrite}
    {k : α → Handler K} (hk : ∀ a, ∀ c' : Call K, c'.dev = c.dev → (k a c').2.dev =
      if bad a = true then c.dev else c.dev.param i true (some (w a))) :
    WritesAt (reading r k) c i (acceptedWrite r bad w c.rd) := by
  unfold WritesAt reading acceptedWrite
  dsimp only
  cases he : (r c.rd).2.err with
  | true => rfl
  | false =>
    have hcall := hk (r c.rd).1 { c with rd := (r c.rd).2 } rfl
    cases hb : bad (r c.rd).1 with
    | true =>
      rw [hb, if_pos rfl] at hcall
      exact hcall
    | false =>
      rw [hb, if_neg Bool.false_ne_true] at hcall
      exact hcall

section Setters

variable {write : Device K → F64 → Device K} {sel : Sel}
  (hw : ∀ v, write c.dev v = c.dev.param i true (some ⟨sel, v, .zero⟩))
include hw

theorem setByte_writesAt : WritesAt (setByte write) c i (byteWrite sel c.rd) :=
  writesAt_reading fun _ _ hc => (congrArg (write · _) hc).trans (hw _)

theorem setFloat_writesAt : WritesAt (setFloat write) c i (floatWrite sel c.rd) :=
  writesAt_reading fun _ _ hc => (congrArg (write · _) hc).trans (hw _)

theorem setFloatIn_writesAt (lo hi : F32) :
    WritesAt (setFloatIn lo hi write) c i (rangedWrite lo hi sel c.rd) :=
  writesAt_reading fun _ _ hc => by
    unfold ranged
    split_ifs
    · exact hc
    · exact (congrArg (write · _) hc).trans (hw _)

end Setters

theorem dynamicsDispatch_writesAt {s : DynState} (hp : (c.dev.obj i).priv = .dynamics s) :
    WritesAt (dynamicsDispatch i idx) c i (s.setting idx c.rd) := by
  have hw (sel : Sel) (v v2 : F64) := Device.dynWrite_eq hp sel v v2 true
  refine writesAt_look ?_
  simp only [hp]
  split
  case h_8 =>
    change WritesAt _ c i (thresholdWrite s.thresholdMin s.thresholdMax c.rd)
    refine writesAt_reading fun a c' hc => ?_
    unfold ranged
    split_ifs
    · exact hc
    · rw [← hw, ← hc]
      rfl
  case h_28 =>
    have hnone : s.setting idx c.rd = none := by
      unfold DynState.setting
      split <;> first | rfl | simp_all
    rw [hnone]
    rfl
  all_goals first
    | exact writesAt_reply _ _
    | exact writesAt_ret _
    | exact setByte_writesAt fun v => hw _ v _
    | exact setFloatIn_writesAt (fun v => hw _ v _) _ _
    | exact setFloat_writesAt fun v => hw _ v _

theorem filterDispatch_writesAt {s : FltState} (hp : (c.dev.obj i).priv = .filter s) :
    WritesAt (filterDispatch i idx) c i (s.setting idx c.rd) := by
  have hw (sel : Sel) (v : F64) := Device.fltWrite_eq hp sel v .zero true
  refine writesAt_look ?_
  simp only [hp]
  split
  case h_8 =>
    change WritesAt _ c i (orderWrite s.orderMin s.orderMax c.rd)
    refine writesAt_reading fun o c' hc => ?_
    simp only [decide_eq_true_eq]
    split_ifs
    · exact hc
    · rw [← hw, ← hc]
      rfl
  case h_12 =>
    have hnone : s.setting idx c.rd = none := by
      unfold FltState.setting
      split <;> first | rfl | simp_all
    rw [hnone]
    rfl
  all_goals first
    | exact writesAt_reply _ _
    | exact writesAt_ret _
    | exact setByte_writesAt fun v => hw _ v
    | exact setFloatIn_writesAt (fun v => hw _ v) _ _
    | exact setFloat_writesAt fun v => hw _ v

theorem peqDispatch_writesAt {s : PeqState} (hp : (c.dev.obj i).priv = .peq s) :
    WritesAt (peqDispatch i idx) c i (s.setting idx c.rd) := by
  have hw (sel : Sel) (v : F64) := Device.peqWrite_eq hp sel v .zero true
  refine writesAt_look ?_
  simp only [hp]
  split
  case h_12 =>
    have hnone : s.setting idx c.rd = none := by
      unfold PeqState.setting
      split <;> first | rfl | simp_all
    rw [hnone]
    rfl
  all_goals first
    | exact writesAt_reply _ _
    | exact writesAt_ret _
    | exact setByte_writesAt fun v => hw _ v
    | exact setFloatIn_writesAt (fun v => hw _ v) _ _
    | exact setFloat_writesAt fun v => hw _ v

theorem panDispatch_writesAt {s : PanState} (hp : (c.dev.obj i).priv = .pan s) :
    WritesAt (panDispatch i idx) c i (s.setting idx c.rd) := by
  have hw (sel : Sel) (v : F64) := Device.panWrite_eq hp sel v .zero true
  refine writesAt_look ?_
  simp only [hp]
  split
  · exact writesAt_reply _ _
  · exact setFloatIn_writesAt (fun v => hw _ v) _ _
  · exact writesAt_reply _ _
  · exact setFloat_writesAt fun v => hw _ v
  · have hnone : s.setting idx c.rd = none := by
      unfold PanState.setting
      split <;> first | rfl | simp_all
    rw [hnone]
    rfl

theorem siggenDispatch_writesAt {s : SigState} (hp : (c.dev.obj i).priv = .siggen s) :
    WritesAt (siggenDispatch i idx) c i (s.setting idx c.rd) := by
  have hw (sel : Sel) (v : F64) := Device.sigWrite_eq hp sel v .zero true
  refine writesAt_look ?_
  simp only [hp]
  split
  case h_16 | h_17 => exact hw _ _
  case h_19 =>
    have hnone : s.setting idx c.rd = none := by
      unfold SigState.setting
      split <;> first | rfl | simp_all
    rw [hnone]
    rfl
  all_goals first
    | exact writesAt_reply _ _
    | exact writesAt_ret _
    | exact setByte_writesAt fun v => hw _ v
    | exact setFloatIn_writesAt (fun v => hw _ v) _ _
    | exact setFloat_writesAt fun v => hw _ v

/-- **A method of a DSP class** makes the write its parameters say. -/
theorem dspDispatch_writesAt {kind : Kind} {h : ObjRef → UInt16 → Handler K}
    (hh : handlerFor kind 4 = some h) (hd : dspIsDspKind kind = true)
    (hk : (c.dev.obj i).kind = kind) : WritesAt (h i idx) c i (dspSetting (c.dev.obj i) idx c.rd) := by
  cases handlerOf_of_handlerFor hh with
  | levelSensor _ hmem | gain _ hmem | state2 _ hmem =>
    simp only [List.mem_cons, List.not_mem_nil, or_false] at hmem
    rcases hmem with rfl | rfl <;> cases hd
  | switch | delay | identify => cases hd
  | dynamics | filter | peq | pan | siggen =>
    cases hp : (c.dev.obj i).priv
    all_goals
      simp only [dspSetting, hk, hp]
      first
        | exact dynamicsDispatch_writesAt hp
        | exact filterDispatch_writesAt hp
        | exact peqDispatch_writesAt hp
        | exact panDispatch_writesAt hp
        | exact siggenDispatch_writesAt hp
        | -- a private state of another class
          refine writesAt_look ?_
          simp only [hp]
          exact writesAt_ret _

end Handlers

/-- The write that a set request makes to a DSP object. -/
def SetReq.write (o : Obj) (req : SetReq) : Option ParamWrite :=
  if o.dspState then some ⟨req.sel, req.num, req.num2⟩ else none

/-- A set request for a DSP object makes its write, without a check. -/
theorem dspApplySet_eq (d : Device K) (i : ObjRef) (req : SetReq) :
    d.dspApplySet i req = d.param i false (req.write (d.obj i)) := by
  unfold Device.dspApplySet SetReq.write Obj.dspState
  cases hk : (d.obj i).kind <;> cases hp : (d.obj i).priv <;>
    simp [Device.param, Device.dynWrite, Device.fltWrite, Device.peqWrite, Device.panWrite,
      Device.sigWrite, Priv.write, hp]

end Aes70
