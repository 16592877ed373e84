import Aes70.Ieee.Convert
import Aes70.Router.Params

/-!
# The bounds of DSP parameters

The getter of a numeric parameter returns its minimum and its maximum with it. Some setters of these
parameters check the bounds, some do not, and the set requests of the application never do.

* `Gauge` : a number with its bounds.
* `Priv.parameters` : the parameters of an object that have bounds, with their getters and
  selectors.
* `dspDispatch_shows` : these are the parameters whose getters return bounds.
* `inBounds_write_iff` : a write keeps them within the bounds exactly if it is one they admit.
* `setting_admits` : the setters that check make no other write.
-/

namespace Aes70

open Handler

variable {K : Kconfig}

/-! ### Parameters with bounds -/

/-- A number with the minimum and the maximum that are returned with it. -/
inductive Gauge
  | float (value min max : F32)
  | word (value min max : UInt16)

namespace Gauge

/-- The number lies between the bounds. -/
def Inside : Gauge → Prop
  | float v lo hi => lo.le v = true ∧ v.le hi = true
  | word v lo hi => lo ≤ v ∧ v ≤ hi

/-- `x`, cast to the type of the number, lies between the bounds. -/
def Admits (g : Gauge) (x : F64) : Prop :=
  match g with
  | float _ lo hi => lo.le (toF32 x) = true ∧ (toF32 x).le hi = true
  | word _ lo hi => lo ≤ toU16 x ∧ toU16 x ≤ hi

/-- With `x` stored. -/
def store (x : F64) : Gauge → Gauge
  | float _ lo hi => float (toF32 x) lo hi
  | word _ lo hi => word (toU16 x) lo hi

/-- What a getter returns, where `ref` stands between the number and its bounds. -/
def fields (ref : List Field) : Gauge → List Field
  | float v lo hi => .f32 v :: (ref ++ [.f32 lo, .f32 hi])
  | word v lo hi => .u16 v :: (ref ++ [.u16 lo, .u16 hi])

instance (g : Gauge) : Decidable g.Inside := by
  unfold Inside
  split <;> infer_instance

instance (g : Gauge) (x : F64) : Decidable (g.Admits x) := by
  unfold Admits
  split <;> infer_instance

theorem inside_store (g : Gauge) (x : F64) : (g.store x).Inside ↔ g.Admits x := by
  cases g <;> rfl

end Gauge

/-- A parameter with bounds: the methods that return it and the selectors that write it. -/
structure Parameter where
  getters : List UInt16
  sels : List Sel
  gauge : Gauge

/-- The parameter after a write. -/
def Parameter.store (w : ParamWrite) (q : Parameter) : Parameter :=
  if w.sel ∈ q.sels then { q with gauge := q.gauge.store w.value } else q

/-- OcaDynamics; GetRatio and GetSlope return the same field. -/
def DynState.parameters (s : DynState) : List Parameter :=
  [⟨[5, 25], [.dynRatio, .dynSlope], .float s.ratio s.ratioMin s.ratioMax⟩,
    ⟨[7], [.dynThreshold], .float s.threshold s.thresholdMin s.thresholdMax⟩,
    ⟨[13], [.dynAttack], .float s.attack s.attackMin s.attackMax⟩,
    ⟨[15], [.dynRelease], .float s.release s.releaseMin s.releaseMax⟩,
    ⟨[17], [.dynHold], .float s.hold s.holdMin s.holdMax⟩,
    ⟨[19], [.dynGainFloor], .float s.gainFloor s.gainFloorMin s.gainFloorMax⟩,
    ⟨[21], [.dynGainCeiling], .float s.gainCeiling s.gainCeilingMin s.gainCeilingMax⟩,
    ⟨[23], [.dynKnee], .float s.knee s.kneeMin s.kneeMax⟩]

/-- OcaFilterClassical. -/
def FltState.parameters (s : FltState) : List Parameter :=
  [⟨[1], [.fltFrequency], .float s.frequency s.frequencyMin s.frequencyMax⟩,
    ⟨[7], [.fltOrder], .word s.order s.orderMin s.orderMax⟩,
    ⟨[9], [.fltParameter], .float s.parameter s.parameterMin s.parameterMax⟩]

/-- OcaFilterParametric. -/
def PeqState.parameters (s : PeqState) : List Parameter :=
  [⟨[1], [.peqFrequency], .float s.frequency s.frequencyMin s.frequencyMax⟩,
    ⟨[5], [.peqWidth], .float s.width s.widthMin s.widthMax⟩,
    ⟨[7], [.peqInbandGain], .float s.inbandGain s.inbandMin s.inbandMax⟩,
    ⟨[9], [.peqShapeParam], .float s.shapeParam s.shapeParamMin s.shapeParamMax⟩]

/-- OcaPanBalance. -/
def PanState.parameters (s : PanState) : List Parameter :=
  [⟨[1], [.panPosition], .float s.position s.positionMin s.positionMax⟩,
    ⟨[3], [.panMidpointGain], .float s.midpointGain s.midpointMin s.midpointMax⟩]

/-- OcaSignalGenerator. -/
def SigState.parameters (s : SigState) : List Parameter :=
  [⟨[1], [.sigFreq1], .float s.freq1 s.freq1Min s.freq1Max⟩,
    ⟨[3], [.sigFreq2], .float s.freq2 s.freq2Min s.freq2Max⟩,
    ⟨[5], [.sigLevel], .float s.level s.levelMin s.levelMax⟩,
    ⟨[11], [.sigSweepTime], .float s.sweepTime s.sweepTimeMin s.sweepTimeMax⟩]

namespace Priv

/-- The parameters with bounds of an object with this private state. -/
def parameters : Priv → List Parameter
  | .dynamics s => s.parameters
  | .filter s => s.parameters
  | .peq s => s.parameters
  | .pan s => s.parameters
  | .siggen s => s.parameters
  | _ => []

/-- All parameters lie within their bounds. -/
def InBounds (p : Priv) : Prop := ∀ q ∈ p.parameters, q.gauge.Inside

/-- The write does not leave the bounds of the parameter it selects. -/
def Admits (p : Priv) (w : ParamWrite) : Prop :=
  ∀ q ∈ p.parameters, w.sel ∈ q.sels → q.gauge.Admits w.value

instance (p : Priv) : Decidable p.InBounds := inferInstanceAs (Decidable (∀ q ∈ p.parameters, _))

instance (p : Priv) (w : ParamWrite) : Decidable (p.Admits w) :=
  inferInstanceAs (Decidable (∀ q ∈ p.parameters, _ → _))

end Priv

/-- The setters of parameters with bounds that do not look at the bounds. -/
def Kind.uncheckedSetters : Kind → List UInt16
  | .dynamics => [18, 20, 22, 26]
  | .filterClassical => [10]
  | .filterParametric => [6, 10]
  | .panBalance => [4]
  | .signalGen => [12]
  | _ => []

/-! ### Writes -/

section Writes

variable {p : Priv} {w : ParamWrite}

/-- A write stores the parameters that have its selector, and leaves the bounds alone. -/
theorem parameters_write (p : Priv) (w : ParamWrite) :
    (p.write w).parameters = p.parameters.map (Parameter.store w) := by
  obtain ⟨sel, v, ref⟩ := w
  cases p <;> cases sel <;> rfl

/-- **A write keeps the parameters within their bounds** if and only if they admit it. -/
theorem inBounds_write_iff (h : p.InBounds) : (p.write w).InBounds ↔ p.Admits w := by
  unfold Priv.InBounds
  rw [parameters_write]
  simp only [List.forall_mem_map]
  refine forall₂_congr fun q hq => ?_
  unfold Parameter.store
  split_ifs with hsel
  · rw [Gauge.inside_store]
    exact ⟨fun hin _ => hin, fun hin => hin hsel⟩
  · exact ⟨fun _ hin => absurd hin hsel, fun _ => h q hq⟩

end Writes

/-! ### Getters -/

/-- What the method `idx` of an object with these parameters returns with bounds. -/
def gaugeOf (ps : List Parameter) (idx : UInt16) : Option Gauge :=
  (ps.find? fun q => idx ∈ q.getters).map Parameter.gauge

/-- The call `c` of `h` returns the number with its bounds, or fewer than three values. -/
def Handler.Shows (h : Handler K) (c : Call K) : Option Gauge → Prop
  | some g => ∃ ref, h c = reply 3 (g.fields ref) c
  | none => c.pc < 3 → (h c).2.pc < 3

@[simp] theorem gaugeOf_nil (idx : UInt16) : gaugeOf [] idx = none := rfl

theorem gaugeOf_cons (q : Parameter) (ps : List Parameter) (idx : UInt16) :
    gaugeOf (q :: ps) idx = if idx ∈ q.getters then some q.gauge else gaugeOf ps idx := by
  unfold gaugeOf
  rw [List.find?_cons]
  split_ifs with h <;> simp [h]

theorem gaugeOf_none {ps : List Parameter} {idx : UInt16} (h : ∀ q ∈ ps, idx ∉ q.getters) :
    gaugeOf ps idx = none := by
  unfold gaugeOf
  rw [List.find?_eq_none.2 fun q hq => by simpa using h q hq]
  rfl

section Getters

variable {c : Call K} {i : ObjRef} {idx : UInt16}

theorem shows_look {f : Device K → Handler K} {g : Option Gauge} (h : Shows (f c.dev) c g) :
    Shows (look f) c g := h

theorem shows_ret (st : Status) : Shows (ret st) c none := fun h => h

theorem shows_store (f : Device K → Device K) : Shows (store f) c none := fun h => h

theorem shows_reply {n : UInt8} (hn : n < 3) (fs : List Field) : Shows (reply n fs) c none :=
  fun _ => hn

theorem shows_getRange (v lo hi : F32) : Shows (getRange v lo hi) c (some (.float v lo hi)) :=
  ⟨[], rfl⟩

theorem shows_reading {α : Type} {r : Read α} {k : α → Handler K}
    (hk : ∀ a, ∀ c' : Call K, Shows (k a) c' none) : Shows (reading r k) c none := by
  intro hpc
  unfold reading
  dsimp only
  split
  · exact hpc
  · exact hk _ _ hpc

theorem shows_setByte (write : Device K → F64 → Device K) : Shows (setByte write) c none :=
  shows_reading fun _ _ => shows_store _

theorem shows_setFloat (write : Device K → F64 → Device K) : Shows (setFloat write) c none :=
  shows_reading fun _ _ => shows_store _

theorem shows_ranged {v lo hi : F32} {k : Handler K} (hk : Shows k c none) :
    Shows (ranged v lo hi k) c none := by
  unfold ranged
  split_ifs
  · exact shows_ret _
  · exact hk

theorem shows_setFloatIn (lo hi : F32) (write : Device K → F64 → Device K) :
    Shows (setFloatIn lo hi write) c none :=
  shows_reading fun _ _ => shows_ranged (shows_store _)

theorem dynamicsDispatch_shows {s : DynState} (hp : (c.dev.obj i).priv = .dynamics s) :
    Shows (dynamicsDispatch i idx) c (gaugeOf s.parameters idx) := by
  refine shows_look ?_
  simp only [hp]
  split
  case h_28 =>
    rw [gaugeOf_none (by simp_all [DynState.parameters])]
    exact shows_ret _
  all_goals simp +decide only [DynState.parameters, gaugeOf_cons, gaugeOf_nil, if_true, if_false]
  case h_7 => exact ⟨[.f32 s.thresholdRef], rfl⟩
  case h_8 => exact shows_reading fun _ _ => shows_ranged (shows_store _)
  all_goals with_reducible first
    | exact shows_reply (by decide) _
    | exact shows_getRange _ _ _
    | exact shows_setByte _
    | exact shows_setFloatIn _ _ _
    | exact shows_setFloat _
    | exact shows_ret _

theorem filterDispatch_shows {s : FltState} (hp : (c.dev.obj i).priv = .filter s) :
    Shows (filterDispatch i idx) c (gaugeOf s.parameters idx) := by
  refine shows_look ?_
  simp only [hp]
  split
  case h_12 =>
    rw [gaugeOf_none (by simp_all [FltState.parameters])]
    exact shows_ret _
  all_goals simp +decide only [FltState.parameters, gaugeOf_cons, gaugeOf_nil, if_true, if_false]
  case h_7 => exact ⟨[], rfl⟩
  case h_8 =>
    refine shows_reading fun _ _ => ?_
    split_ifs
    · exact shows_ret _
    · exact shows_store _
  all_goals with_reducible first
    | exact shows_reply (by decide) _
    | exact shows_getRange _ _ _
    | exact shows_setByte _
    | exact shows_setFloatIn _ _ _
    | exact shows_setFloat _
    | exact shows_ret _

theorem peqDispatch_shows {s : PeqState} (hp : (c.dev.obj i).priv = .peq s) :
    Shows (peqDispatch i idx) c (gaugeOf s.parameters idx) := by
  refine shows_look ?_
  simp only [hp]
  split
  case h_12 =>
    rw [gaugeOf_none (by simp_all [PeqState.parameters])]
    exact shows_ret _
  all_goals simp +decide only [PeqState.parameters, gaugeOf_cons, gaugeOf_nil, if_true, if_false]
  all_goals with_reducible first
    | exact shows_reply (by decide) _
    | exact shows_getRange _ _ _
    | exact shows_setByte _
    | exact shows_setFloatIn _ _ _
    | exact shows_setFloat _
    | exact shows_ret _

theorem panDispatch_shows {s : PanState} (hp : (c.dev.obj i).priv = .pan s) :
    Shows (panDispatch i idx) c (gaugeOf s.parameters idx) := by
  refine shows_look ?_
  simp only [hp]
  split
  case h_5 =>
    rw [gaugeOf_none (by simp_all [PanState.parameters])]
    exact shows_ret _
  all_goals simp +decide only [PanState.parameters, gaugeOf_cons, gaugeOf_nil, if_true, if_false]
  all_goals with_reducible first
    | exact shows_getRange _ _ _
    | exact shows_setFloatIn _ _ _
    | exact shows_setFloat _

theorem siggenDispatch_shows {s : SigState} (hp : (c.dev.obj i).priv = .siggen s) :
    Shows (siggenDispatch i idx) c (gaugeOf s.parameters idx) := by
  refine shows_look ?_
  simp only [hp]
  split
  case h_19 =>
    rw [gaugeOf_none (by simp_all [SigState.parameters])]
    exact shows_ret _
  all_goals simp +decide only [SigState.parameters, gaugeOf_cons, gaugeOf_nil, if_true, if_false]
  all_goals with_reducible first
    | exact shows_reply (by decide) _
    | exact shows_getRange _ _ _
    | exact shows_setByte _
    | exact shows_setFloatIn _ _ _
    | exact shows_setFloat _
    | exact shows_store _
    | exact shows_ret _

/-- **The parameters with bounds** of a DSP object are those that its getters return with a minimum
and a maximum. -/
theorem dspDispatch_shows {kind : Kind} {h : ObjRef → UInt16 → Handler K}
    (hh : handlerFor kind 4 = some h) (hk : (c.dev.obj i).kind = kind)
    (hs : (c.dev.obj i).dspState = true) :
    Shows (h i idx) c (gaugeOf (c.dev.obj i).priv.parameters idx) := by
  unfold Obj.dspState at hs
  rw [hk] at hs
  cases handlerOf_of_handlerFor hh with
  | levelSensor _ hmem | gain _ hmem | state2 _ hmem =>
    simp only [List.mem_cons, List.not_mem_nil, or_false] at hmem
    rcases hmem with rfl | rfl <;> cases hs
  | switch | delay | identify => cases hs
  | dynamics | filter | peq | pan | siggen =>
    cases hp : (c.dev.obj i).priv <;> rw [hp] at hs <;> try cases hs
    first
      | exact dynamicsDispatch_shows hp
      | exact filterDispatch_shows hp
      | exact peqDispatch_shows hp
      | exact panDispatch_shows hp
      | exact siggenDispatch_shows hp

end Getters

/-! ### Setters -/

section Setters

variable {lo hi : F32} {sel : Sel} {rd : Reader} {w : ParamWrite}

theorem acceptedWrite_some {α : Type} {r : Read α} {bad : α → Bool} {f : α → ParamWrite}
    (h : acceptedWrite r bad f rd = some w) : ∃ a, bad a = false ∧ w = f a := by
  unfold acceptedWrite at h
  dsimp only at h
  split_ifs at h with hbad
  simp only [Bool.or_eq_true, not_or, Bool.not_eq_true] at hbad
  exact ⟨_, hbad.2, (Option.some.inj h).symm⟩

/-- A number that passes the check of a setter lies within the bounds, also after the casts on its
way to the field. -/
theorem between_of_check (hlo : lo.isNaN = false) (hhi : hi.isNaN = false) {v : F32}
    (hcheck : (v.lt lo || hi.lt v) = false) (hnum : (toF64 v).isNaN = false) :
    lo.le (toF32 (toF64 v)) = true ∧ (toF32 (toF64 v)).le hi = true := by
  have hv : v.isNaN = false := Ieee.Binary.isNaN_of_convert (by decide) hnum
  have hback : toF32 (toF64 v) = v :=
    Ieee.Binary.convert_convert (by decide) (by decide) (by decide) hv
  rw [Bool.or_eq_false_iff] at hcheck
  rw [hback]
  exact ⟨Ieee.Binary.le_of_not_lt hlo hv hcheck.1, Ieee.Binary.le_of_not_lt hv hhi hcheck.2⟩

theorem rangedWrite_between {v : F32} (hin : (Gauge.float v lo hi).Inside)
    (h : rangedWrite lo hi sel rd = some w) (hnum : w.value.isNaN = false) :
    w.sel = sel ∧ (Gauge.float v lo hi).Admits w.value := by
  obtain ⟨a, hcheck, rfl⟩ := acceptedWrite_some h
  exact ⟨rfl, between_of_check (Ieee.Binary.le_iff.1 hin.1).1 (Ieee.Binary.le_iff.1 hin.2).2.1
    hcheck hnum⟩

theorem thresholdWrite_between {v : F32} (hin : (Gauge.float v lo hi).Inside)
    (h : thresholdWrite lo hi rd = some w) (hnum : w.value.isNaN = false) :
    w.sel = .dynThreshold ∧ (Gauge.float v lo hi).Admits w.value := by
  obtain ⟨a, hcheck, rfl⟩ := acceptedWrite_some h
  exact ⟨rfl, between_of_check (Ieee.Binary.le_iff.1 hin.1).1 (Ieee.Binary.le_iff.1 hin.2).2.1
    hcheck hnum⟩

theorem orderWrite_between {lo hi : UInt16} (h : orderWrite lo hi rd = some w) :
    w.sel = .fltOrder ∧ ∀ v, (Gauge.word v lo hi).Admits w.value := by
  obtain ⟨a, hcheck, rfl⟩ := acceptedWrite_some h
  have hback : toU16 (.ofNat a.toNat) = a := by
    have hlt := a.toNat_lt
    rw [toU16, Ieee.Binary.ofNat_eq_ofInt,
      Ieee.Binary.trunc_ofInt (by decide) (by decide) (by omega)]
    have hcast := toNat_ofInt16 (Int.natCast_nonneg a.toNat) (by exact_mod_cast hlt)
    exact UInt16.toNat_inj.1 (by exact_mod_cast hcast)
  have hbounds := of_decide_eq_false hcheck
  rw [not_or, UInt16.not_lt, UInt16.not_lt] at hbounds
  refine ⟨rfl, fun v => ?_⟩
  change lo ≤ toU16 (.ofNat a.toNat) ∧ toU16 (.ofNat a.toNat) ≤ hi
  rw [hback]
  exact hbounds

theorem byteWrite_sel (h : byteWrite sel rd = some w) : w.sel = sel := by
  obtain ⟨a, -, rfl⟩ := acceptedWrite_some h
  rfl

variable {idx : UInt16}

theorem DynState.setting_admits {s : DynState} (hin : (Priv.dynamics s).InBounds)
    (h : s.setting idx rd = some w) (hidx : idx ∉ Kind.dynamics.uncheckedSetters)
    (hnum : w.value.isNaN = false) : (Priv.dynamics s).Admits w := by
  simp only [Priv.InBounds, Priv.parameters, DynState.parameters, List.forall_mem_cons] at hin
  obtain ⟨hratio, hthreshold, hattack, hrelease, hhold, hfloor, hceiling, hknee, -⟩ := hin
  unfold setting at h
  split at h
  case h_3 =>
    obtain ⟨hsel, hadmits⟩ := thresholdWrite_between hthreshold h hnum
    simpa [Priv.Admits, Priv.parameters, DynState.parameters, hsel] using hadmits
  all_goals first
    | exact absurd (by decide) hidx -- no check
    | have hsel := byteWrite_sel h
      simp [Priv.Admits, Priv.parameters, DynState.parameters, hsel]
    | obtain ⟨hsel, hadmits⟩ := rangedWrite_between (by assumption) h hnum
      simpa [Priv.Admits, Priv.parameters, DynState.parameters, hsel] using hadmits
    | cases h

theorem FltState.setting_admits {s : FltState} (hin : (Priv.filter s).InBounds)
    (h : s.setting idx rd = some w) (hidx : idx ∉ Kind.filterClassical.uncheckedSetters)
    (hnum : w.value.isNaN = false) : (Priv.filter s).Admits w := by
  simp only [Priv.InBounds, Priv.parameters, FltState.parameters, List.forall_mem_cons] at hin
  obtain ⟨hfrequency, horder, hparameter, -⟩ := hin
  unfold setting at h
  split at h
  case h_4 =>
    obtain ⟨hsel, hadmits⟩ := orderWrite_between h
    simpa [Priv.Admits, Priv.parameters, FltState.parameters, hsel] using hadmits s.order
  all_goals first
    | exact absurd (by decide) hidx -- no check
    | have hsel := byteWrite_sel h
      simp [Priv.Admits, Priv.parameters, FltState.parameters, hsel]
    | obtain ⟨hsel, hadmits⟩ := rangedWrite_between (by assumption) h hnum
      simpa [Priv.Admits, Priv.parameters, FltState.parameters, hsel] using hadmits
    | cases h

theorem PeqState.setting_admits {s : PeqState} (hin : (Priv.peq s).InBounds)
    (h : s.setting idx rd = some w) (hidx : idx ∉ Kind.filterParametric.uncheckedSetters)
    (hnum : w.value.isNaN = false) : (Priv.peq s).Admits w := by
  simp only [Priv.InBounds, Priv.parameters, PeqState.parameters, List.forall_mem_cons] at hin
  obtain ⟨hfrequency, hwidth, hgain, hshape, -⟩ := hin
  unfold setting at h
  split at h
  all_goals first
    | exact absurd (by decide) hidx -- no check
    | have hsel := byteWrite_sel h
      simp [Priv.Admits, Priv.parameters, PeqState.parameters, hsel]
    | obtain ⟨hsel, hadmits⟩ := rangedWrite_between (by assumption) h hnum
      simpa [Priv.Admits, Priv.parameters, PeqState.parameters, hsel] using hadmits
    | cases h

theorem PanState.setting_admits {s : PanState} (hin : (Priv.pan s).InBounds)
    (h : s.setting idx rd = some w) (hidx : idx ∉ Kind.panBalance.uncheckedSetters)
    (hnum : w.value.isNaN = false) : (Priv.pan s).Admits w := by
  simp only [Priv.InBounds, Priv.parameters, PanState.parameters, List.forall_mem_cons] at hin
  obtain ⟨hposition, hgain, -⟩ := hin
  unfold setting at h
  split at h
  all_goals first
    | exact absurd (by decide) hidx -- no check
    | obtain ⟨hsel, hadmits⟩ := rangedWrite_between (by assumption) h hnum
      simpa [Priv.Admits, Priv.parameters, PanState.parameters, hsel] using hadmits
    | cases h

theorem SigState.setting_admits {s : SigState} (hin : (Priv.siggen s).InBounds)
    (h : s.setting idx rd = some w) (hidx : idx ∉ Kind.signalGen.uncheckedSetters)
    (hnum : w.value.isNaN = false) : (Priv.siggen s).Admits w := by
  simp only [Priv.InBounds, Priv.parameters, SigState.parameters, List.forall_mem_cons] at hin
  obtain ⟨hfreq1, hfreq2, hlevel, htime, -⟩ := hin
  unfold setting at h
  split at h
  case h_8 | h_9 =>
    obtain rfl := Option.some.inj h
    simp [Priv.Admits, Priv.parameters, SigState.parameters]
  all_goals first
    | exact absurd (by decide) hidx -- no check
    | have hsel := byteWrite_sel h
      simp [Priv.Admits, Priv.parameters, SigState.parameters, hsel]
    | obtain ⟨hsel, hadmits⟩ := rangedWrite_between (by assumption) h hnum
      simpa [Priv.Admits, Priv.parameters, SigState.parameters, hsel] using hadmits
    | cases h

/-- **A setter that checks the bounds** makes no write that leaves them. -/
theorem setting_admits {o : Obj} (hin : o.priv.InBounds) (h : dspSetting o idx rd = some w)
    (hidx : idx ∉ o.kind.uncheckedSetters) (hnum : w.value.isNaN = false) : o.priv.Admits w := by
  unfold dspSetting at h
  split at h
  next s hk hp =>
    rw [hk] at hidx
    rw [hp] at hin ⊢
    exact DynState.setting_admits hin h hidx hnum
  next s hk hp =>
    rw [hk] at hidx
    rw [hp] at hin ⊢
    exact FltState.setting_admits hin h hidx hnum
  next s hk hp =>
    rw [hk] at hidx
    rw [hp] at hin ⊢
    exact PeqState.setting_admits hin h hidx hnum
  next s hk hp =>
    rw [hk] at hidx
    rw [hp] at hin ⊢
    exact PanState.setting_admits hin h hidx hnum
  next s hk hp =>
    rw [hk] at hidx
    rw [hp] at hin ⊢
    exact SigState.setting_admits hin h hidx hnum
  · cases h

end Setters

end Aes70
