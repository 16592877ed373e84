import Aes70.Device.Delivery
import Aes70.Device.Mirror
import Aes70.Router.Bounds
import Aes70.Router.Message
import Aes70.Security.Confinement

/-!
# Announced values and their getters

A notification carries the value of a property as `aes70_object_encode_property` writes it, and a
controller that asks for the property gets it from the getter of its class. The two are written by
different code, under different numbers.

* `Obj.Announces` : the properties that the write paths announce, each with its getter.
* `Obj.getterBounds` : the minimum and the maximum that the getter writes behind the value.
* `gets_announced` : the getter replies what is announced, and these bounds.
* `answer_announced` : in bytes, the response is what a notification carries, and the bounds.
-/

namespace Aes70

open Handler

variable {K : Kconfig}

/-! ### Announced properties -/

/-- The class that has the parameter. -/
def Sel.kind : Sel → Option Kind
  | .scalar => none
  | .dynFunction | .dynThreshold | .dynRatio | .dynSlope | .dynAttack | .dynRelease | .dynHold
  | .dynKnee | .dynGainFloor | .dynGainCeiling | .dynDetectorLaw | .dynThresholdUnits
  | .dynDynamicGain | .dynTriggered => some .dynamics
  | .fltFrequency | .fltPassband | .fltShape | .fltOrder | .fltParameter => some .filterClassical
  | .peqFrequency | .peqShape | .peqWidth | .peqInbandGain | .peqShapeParam =>
    some .filterParametric
  | .panPosition | .panMidpointGain => some .panBalance
  | .sigFreq1 | .sigFreq2 | .sigLevel | .sigWaveform | .sigSweepType | .sigSweepTime
  | .sigSweepRepeat | .sigGenerating => some .signalGen

/-- The method that gets the parameter, by the number it has in its class. -/
def Sel.getter : Sel → UInt16
  | .scalar => 0
  | .dynTriggered => 1 -- GetTriggered
  | .dynDynamicGain => 2 -- GetDynamicGain
  | .dynFunction => 3 -- GetFunction
  | .dynRatio => 5 -- GetRatio
  | .dynThreshold => 7 -- GetThreshold
  | .dynThresholdUnits => 9 -- GetThresholdPresentationUnits
  | .dynDetectorLaw => 11 -- GetDetectorLaw
  | .dynAttack => 13 -- GetAttackTime
  | .dynRelease => 15 -- GetReleaseTime
  | .dynHold => 17 -- GetHoldTime
  | .dynGainFloor => 19 -- GetDynamicGainFloor
  | .dynGainCeiling => 21 -- GetDynamicGainCeiling
  | .dynKnee => 23 -- GetKneeParameter
  | .dynSlope => 25 -- GetSlope
  | .fltFrequency | .peqFrequency | .panPosition | .sigFreq1 => 1
  | .fltPassband | .peqShape | .panMidpointGain | .sigFreq2 => 3
  | .fltShape | .peqWidth | .sigLevel => 5
  | .fltOrder | .peqInbandGain | .sigWaveform => 7
  | .fltParameter | .peqShapeParam | .sigSweepType => 9
  | .sigSweepTime => 11 -- GetSweepTime
  | .sigSweepRepeat => 13 -- GetSweepRepeat
  | .sigGenerating => 15 -- GetGenerating

/-- A property of the object that some write path announces, with the method that gets it; both by
level and index. -/
inductive Obj.Announces (o : Obj) : UInt16 × UInt16 → UInt16 × UInt16 → Prop
  /-- `SetEnabled`, read by `GetEnabled`. -/
  | enabled (h : o.kind ∉ [Kind.grouper, .deviceManager, .subscriptionManager]) :
    Announces o (2, 1) (2, 1)
  /-- `SetLabel`, read by `GetLabel`. -/
  | label (h : o.kind ∉ [Kind.grouper, .deviceManager, .subscriptionManager]) :
    Announces o (2, 3) (2, 8)
  /-- `SetDeviceName`, read by `GetDeviceName`. -/
  | deviceName (h : o.kind = .deviceManager) : Announces o (3, 4) (3, 4)
  /-- `SetDeviceRole`, read by `GetDeviceRole`. -/
  | deviceRole (h : o.kind = .deviceManager) : Announces o (3, 6) (3, 7)
  /-- A commit of the value of a scalar class, read by the first method of the level. -/
  | value {level index : UInt16} (h : primaryProperty o.kind = some (level, index)) :
    Announces o (level, index) (level, 1)
  /-- A parameter write of a DSP class. -/
  | parameter {sel : Sel} (h : sel.kind = some o.kind) (hs : o.dspState = true) :
    Announces o (selToProp sel) (4, sel.getter)

/-- The fields that the getter of a value writes after it. -/
def Obj.valueBounds (o : Obj) : List Field :=
  match o.kind with
  | .gain | .frequency | .levelSensor | .temperature | .float32 =>
    [.f32 (toF32 o.numMin), .f32 (toF32 o.numMax)]
  | .delay => [.f64 o.numMin, .f64 o.numMax]
  | .switch => [.u16 0, .u16 (if o.swCount = 0 then 0 else o.swCount - 1)]
  | .int32 | .uint32 => [.u32 (toU32 o.numMin), .u32 (toU32 o.numMax)]
  | .uint16 => [.u16 (toU16 o.numMin), .u16 (toU16 o.numMax)]
  | _ => []

/-- The bounds of a number. -/
def Gauge.bounds : Gauge → List Field
  | float _ lo hi => [.f32 lo, .f32 hi]
  | word _ lo hi => [.u16 lo, .u16 hi]

/-- The minimum and the maximum that the getter `m` writes behind the value, if it writes any: those
of the value, or those of a parameter. -/
def Obj.getterBounds (o : Obj) (m : UInt16 × UInt16) : List Field :=
  if m.1 = 4 ∧ dspIsDspKind o.kind = true then
    ((gaugeOf o.priv.parameters m.2).map Gauge.bounds).getD []
  else if m.1 = 4 ∨ m.1 = 5 then o.valueBounds
  else []

/-- How many parameters a getter counts: the value, and a minimum and a maximum. -/
def getterCount (bounds : List Field) : UInt8 := if bounds.isEmpty then 1 else 3

/-- The method `m` of object `i` replies these fields, and behind them the bounds. -/
def Device.Gets (d : Device K) (i : ObjRef) (m : UInt16 × UInt16) (fs : List Field) : Prop :=
  ∀ c : Call K, c.dev = d → objectDispatch i m.1 m.2 c =
    reply (getterCount ((d.obj i).getterBounds m)) (fs ++ (d.obj i).getterBounds m) c

section Getters

variable {d : Device K} {i : ObjRef} {prop m : UInt16 × UInt16} {fs : List Field}

/-- The bounds take sixteen bytes at most. -/
theorem getterBounds_size (o : Obj) (m : UInt16 × UInt16) : fieldsSize (o.getterBounds m) ≤ 16 := by
  unfold Obj.getterBounds
  split_ifs
  · cases gaugeOf o.priv.parameters m.2 with
    | none => exact Nat.zero_le _
    | some g => cases g <;> simp [Gauge.bounds, fieldsSize, Field.size]
  · unfold Obj.valueBounds
    split <;> simp [fieldsSize, Field.size]
  · exact Nat.zero_le _

/-- Only the levels of the values have bounds. -/
theorem getterBounds_of_level (o : Obj) (h : m.1 ≠ 4 ∧ m.1 ≠ 5) : o.getterBounds m = [] := by
  rw [Obj.getterBounds, if_neg fun hm => h.1 hm.1, if_neg fun hm => hm.elim h.1 h.2]

/-- The getter of a class that replies the fields and the bounds. -/
theorem gets_of_handler {h : ObjRef → UInt16 → Handler K}
    (hq : methodIsWrite (d.obj i).kind m.1 m.2 = false)
    (hh : handlerFor (d.obj i).kind m.1 = some h)
    (hcall : ∀ c : Call K, c.dev = d → h i m.2 c =
      reply (getterCount ((d.obj i).getterBounds m)) (fs ++ (d.obj i).getterBounds m) c) :
    d.Gets i m fs := fun c hc => by
  rw [objectDispatch_of_handler hh (gate_of_query hq) hc, hcall c hc]

/-- A getter without bounds. -/
theorem gets_of_level {h : ObjRef → UInt16 → Handler K}
    (hq : methodIsWrite (d.obj i).kind m.1 m.2 = false)
    (hh : handlerFor (d.obj i).kind m.1 = some h) (hm : m.1 ≠ 4 ∧ m.1 ≠ 5)
    (hcall : ∀ c : Call K, c.dev = d → h i m.2 c = reply 1 fs c) : d.Gets i m fs := by
  refine gets_of_handler hq hh fun c hc => ?_
  rw [getterBounds_of_level _ hm, List.append_nil]
  exact hcall c hc

/-- What a handler that looks at the device does, looking at this one. -/
theorem look_of {f : Device K → Handler K} {c : Call K} (hc : c.dev = d) : look f c = f d c := by
  rw [← hc]
  rfl

/-- Fields with a fixed size or a length prefix are not empty on the wire. -/
theorem encodeAll_ne_nil {f : Field} (hf : ∀ bs, f ≠ .bytes bs) (fs : List Field) :
    Field.encodeAll (f :: fs) ≠ [] := by
  have hencode : f.encode ≠ [] := by
    cases f with
    | bytes bs => exact absurd rfl (hf bs)
    | _ => simp [Field.encode, Field.pieces, ← List.length_pos_iff]
  simp [Field.encodeAll, hencode]

/-- The getter of a value writes the value, then the bounds. -/
theorem handler_value {level index : UInt16} {h : ObjRef → UInt16 → Handler K}
    (hp : primaryProperty (d.obj i).kind = some (level, index))
    (hh : handlerFor (d.obj i).kind level = some h) {c : Call K} (hc : c.dev = d) :
    h i 1 c = reply (getterCount (d.obj i).valueBounds)
      (encodeValue (d.obj i) ++ (d.obj i).valueBounds) c := by
  subst hc
  cases hk : (c.dev.obj i).kind <;> rw [hk] at hp hh <;>
    simp only [primaryProperty, Option.some.injEq, Prod.mk.injEq, reduceCtorEq] at hp
  all_goals
    obtain ⟨rfl, rfl⟩ := hp
    obtain rfl := Option.some.inj hh
    simp only [encodeValue, Obj.valueBounds, hk]
  case gain | frequency | levelSensor | temperature | delay | switch | mute | polarity | identify =>
    rfl
  all_goals
    change getSetting (c.dev.obj i) c = _
    unfold getSetting
    rw [hk]
    rfl

/-- Behind a value stand its bounds. -/
theorem getterBounds_value {level index : UInt16}
    (h : primaryProperty (d.obj i).kind = some (level, index)) :
    (d.obj i).getterBounds (level, 1) = (d.obj i).valueBounds := by
  have hlevel : (level = 4 ∨ level = 5) ∧ dspIsDspKind (d.obj i).kind = false := by
    cases hk : (d.obj i).kind <;> rw [hk] at h <;>
      simp only [primaryProperty, Option.some.injEq, Prod.mk.injEq, reduceCtorEq] at h
    all_goals
      obtain ⟨rfl, rfl⟩ := h
      exact ⟨by decide, rfl⟩
  rw [Obj.getterBounds, if_neg (by simp [hlevel.2]), if_pos hlevel.1]

/-- The primary value of a scalar class. -/
theorem gets_value {level index : UInt16}
    (h : primaryProperty (d.obj i).kind = some (level, index)) :
    ∃ fs, d.encodeProperty i level index = some fs ∧ Field.encodeAll fs ≠ [] ∧
      d.Gets i (level, 1) fs := by
  have hshape : level ≠ 2 ∧ level ≠ 3 ∧ index = 1 ∧ dspIsDspKind (d.obj i).kind = false ∧
      methodIsWrite (d.obj i).kind level 1 = false ∧
        Field.encodeAll (encodeValue (d.obj i)) ≠ [] := by
    cases hk : (d.obj i).kind <;> rw [hk] at h <;>
      simp only [primaryProperty, Option.some.injEq, Prod.mk.injEq, reduceCtorEq] at h
    all_goals
      obtain ⟨rfl, rfl⟩ := h
      simp only [encodeValue, hk]
      exact ⟨by decide, by decide, trivial, rfl, rfl, encodeAll_ne_nil (fun _ h => by cases h) _⟩
  obtain ⟨hl2, hl3, rfl, hdsp, hquery, hne⟩ := hshape
  have hnone : dspEncodeProperty (d.obj i) level 1 = none := by
    unfold dspEncodeProperty
    split_ifs
    · rfl
    · cases hk : (d.obj i).kind <;> simp [hk, dspIsDspKind] at hdsp ⊢
  refine ⟨encodeValue (d.obj i), ?_, hne, ?_⟩
  · simp [Device.encodeProperty, Device.encodeClassProperty, hl2, hl3, hnone, h]
  · obtain ⟨hd, hh⟩ := handlerFor_of_primaryProperty (K := K) h
    refine gets_of_handler (m := (level, 1)) hquery hh fun c hc => ?_
    rw [getterBounds_value h]
    exact handler_value h hh hc

/-- A parameter of a DSP class. -/
theorem gets_parameter {sel : Sel} (h : sel.kind = some (d.obj i).kind)
    (hs : (d.obj i).dspState = true) :
    ∃ fs, d.encodeProperty i (selToProp sel).1 (selToProp sel).2 = some fs ∧
      Field.encodeAll fs ≠ [] ∧ d.Gets i (4, sel.getter) fs := by
  have hlevel : (selToProp sel).1 = 4 := by cases sel <;> rfl
  have hprop {x : UInt16} {fs : List Field} (hx : dspEncodeProperty (d.obj i) 4 x = some fs) :
      d.encodeProperty i 4 x = some fs := by
    simp [Device.encodeProperty, Device.encodeClassProperty, hx]
  rw [hlevel]
  unfold Obj.dspState at hs
  unfold dspEncodeProperty at hprop
  -- the state of a DSP object is the one of its kind, and the selector one of that kind
  cases hk : (d.obj i).kind <;> cases hp : (d.obj i).priv <;> rw [hk] at h <;>
    simp only [hk, hp, reduceCtorEq] at hs hprop
  all_goals cases sel <;> simp only [Sel.kind, Option.some.injEq, reduceCtorEq] at h
  all_goals
    refine ⟨_, hprop rfl, encodeAll_ne_nil (fun _ h => by cases h) _, ?_⟩
    apply gets_of_handler
    · rw [hk]
      rfl
    · rw [hk]
      rfl
    · intro c hc
      refine (look_of hc).trans ?_
      dsimp only [Obj.getterBounds]
      rw [hk, hp]
      rfl

/-- The method `y` of the device manager replies the text that is its property `x`. -/
theorem gets_devmgr {x y : UInt16} {s : Bytes} (hk : (d.obj i).kind = .deviceManager)
    (hx : d.encodeProperty i 3 x = some [.string s])
    (hcall : ∀ c : Call K, c.dev = d → devmgrDispatch i y c = reply 1 [.string s] c) :
    ∃ fs, d.encodeProperty i 3 x = some fs ∧ Field.encodeAll fs ≠ [] ∧ d.Gets i (3, y) fs := by
  refine ⟨_, hx, encodeAll_ne_nil (fun _ h => by cases h) _, ?_⟩
  refine gets_of_level ?_ ?_ ⟨(by decide : (3 : UInt16) ≠ 4), (by decide : (3 : UInt16) ≠ 5)⟩ hcall
  · rw [hk]
    rfl
  · rw [hk]
    rfl

/-- **The getter of an announced property** replies what is announced, and the bounds. -/
theorem gets_announced (h : (d.obj i).Announces prop m) :
    ∃ fs, d.encodeProperty i prop.1 prop.2 = some fs ∧ Field.encodeAll fs ≠ [] ∧ d.Gets i m fs := by
  cases h with
  | enabled hk =>
    refine ⟨[.u8 (flag (d.obj i).enabled)], rfl, encodeAll_ne_nil (fun _ h => by cases h) _, ?_⟩
    refine gets_of_level rfl (handlerFor_worker hk) (by decide) ?_
    intro c hc
    rw [← hc]
    rfl
  | label hk =>
    refine ⟨[.string ((d.obj i).label.getD [])], rfl, encodeAll_ne_nil (fun _ h => by cases h) _,
      ?_⟩
    refine gets_of_level rfl (handlerFor_worker hk) (by decide) ?_
    intro c hc
    rw [← hc]
    rfl
  | deviceName hk =>
    refine gets_devmgr (s := d.deviceName) hk (by simp [Device.encodeProperty, hk]) ?_
    intro c hc
    rw [← hc]
    rfl
  | deviceRole hk =>
    refine gets_devmgr (s := d.deviceRole) hk (by simp [Device.encodeProperty, hk]) ?_
    intro c hc
    rw [← hc]
    rfl
  | value hp => exact gets_value hp
  | parameter hk hs => exact gets_parameter hk hs

/-- **The response of the getter** is the bytes that are announced, which are some, and the
bounds. -/
theorem answer_announced (h : (d.obj i).Announces prop m) :
    ∃ v, d.wireProperty i prop.1 prop.2 = some v ∧ v ≠ [] ∧
      ∀ (room conn : ℕ) (cmd : Command) (rd : Reader), d.find cmd.target = some i →
        (cmd.level, cmd.index) = m →
          let bounds := (d.obj i).getterBounds m
          let a := answer room conn cmd rd d
          a.response.status = .ok ∧ a.response.paramCount = getterCount bounds ∧
            (a.overflow = false → a.response.params = v ++ Field.encodeAll bounds) ∧
              (v.length + 16 ≤ room → a.overflow = false) := by
  obtain ⟨fs, hfs, hne, -⟩ := gets_announced h
  refine ⟨Field.encodeAll fs, by rw [Device.wireProperty, hfs]; rfl, hne, ?_⟩
  intro room conn cmd rd hf hm
  -- the device is the same but for the connection that is active
  obtain ⟨fs', hfs', -, hcall⟩ := gets_announced (d := { d with activeConn := some conn }) h
  obtain rfl : fs' = fs := Option.some.inj (hfs'.symm.trans hfs)
  subst hm
  let bounds := (d.obj i).getterBounds (cmd.level, cmd.index)
  have heq := answer_of_dispatch
    (e := ⟨.ok, { d with activeConn := some conn }, fs' ++ bounds, getterCount bounds⟩)
    room hf fun wr => hcall ⟨{ d with activeConn := some conn }, rd, wr, 0⟩ rfl
  dsimp only
  rw [heq]
  refine ⟨rfl, rfl, ?_, ?_⟩
  · intro hover
    rw [Effect.answer_params (fun hne => absurd rfl hne) cmd.handle rd hover, encodeAll_append]
  · intro hroom
    have hlen : (Field.encodeAll (fs' ++ bounds)).length ≤ room := by
      have hbounds := (Field.length_encodeAll bounds).trans_le (getterBounds_size _ _)
      rw [encodeAll_append, List.length_append]
      omega
    change ((Writer.init room).fields (fs' ++ bounds)).err = false
    rw [Writer.fields_of_fits rfl (by simpa [Writer.init, Writer.off] using hlen)]
    rfl

end Getters

end Aes70
