import Aes70.Device.Basic

/-!
# Property values on the wire

`aes70_object_primary_property`, `encode_value`, `aes70_dsp_encode_property` and
`aes70_object_encode_property`: which property of an object is its value, and the fields a property
is written as. The encoders return the fields they write, `none` for an unknown property.

A narrowing cast of a `double` outside the range of the target type is undefined in C; here it
keeps the low bits of the integer part.
-/

namespace Aes70

/-! ### Casts -/

/-- `(float)v`. -/
def toF32 (v : F64) : F32 := v.convert

/-- The implicit widening of a `float`. -/
def toF64 (v : F32) : F64 := v.convert

/-- `(uint8_t)v`. -/
def toU8 (v : F64) : UInt8 := UInt8.ofInt v.trunc

/-- `(uint16_t)v`. -/
def toU16 (v : F64) : UInt16 := UInt16.ofInt v.trunc

/-- `(uint32_t)v`; also `(uint32_t)(int32_t)v`. -/
def toU32 (v : F64) : UInt32 := UInt32.ofInt v.trunc

/-- `v != 0`. -/
def isNonzero (v : F64) : Bool := !v.eqv .zero

/-- `b ? 1 : 0`. -/
def flag (b : Bool) : UInt8 := if b then 1 else 0

section Casts

variable {z : ℤ}

theorem toNat_ofInt8 (hlo : 0 ≤ z) (hhi : z < 2 ^ 8) : ((UInt8.ofInt z).toNat : ℤ) = z := by
  rw [UInt8.ofInt, Int.emod_eq_of_lt hlo hhi,
    UInt8.toNat_ofNat_of_lt' (by simp [UInt8.size]; omega), Int.toNat_of_nonneg hlo]

theorem toNat_ofInt16 (hlo : 0 ≤ z) (hhi : z < 2 ^ 16) : ((UInt16.ofInt z).toNat : ℤ) = z := by
  rw [UInt16.ofInt, Int.emod_eq_of_lt hlo hhi,
    UInt16.toNat_ofNat_of_lt' (by simp [UInt16.size]; omega), Int.toNat_of_nonneg hlo]

theorem toNat_ofInt32 (hlo : 0 ≤ z) (hhi : z < 2 ^ 32) : ((UInt32.ofInt z).toNat : ℤ) = z := by
  rw [UInt32.ofInt, Int.emod_eq_of_lt hlo hhi,
    UInt32.toNat_ofNat_of_lt' (by simp [UInt32.size]; omega), Int.toNat_of_nonneg hlo]

/-- A negative integer is sent as an unsigned one, and read back. -/
theorem toInt_ofInt32 (hlo : -2 ^ 31 ≤ z) (hhi : z < 2 ^ 31) :
    (UInt32.ofInt z).toInt32.toInt = z := by
  have hnat : ((UInt32.ofInt z).toNat : ℤ) = z % ((2 ^ 32 : ℕ) : ℤ) := by
    rw [UInt32.ofInt, UInt32.toNat_ofNat_of_lt' (by simp [UInt32.size]; omega),
      Int.toNat_of_nonneg (by omega)]
    rfl
  have hint : (UInt32.ofInt z).toInt32.toInt = ((UInt32.ofInt z).toNat : ℤ).bmod (2 ^ 32) :=
    BitVec.toInt_eq_toNat_bmod _
  rw [hint, hnat, Int.emod_bmod]
  exact Int.bmod_eq_of_le (by norm_num; omega) (by norm_num; omega)

end Casts

/-! ### Encoders -/

/-- `aes70_object_primary_property`. -/
def primaryProperty : Kind → Option (UInt16 × UInt16)
  | .gain | .mute | .polarity | .switch | .delay | .levelSensor | .temperature | .frequency
  | .identify => some (4, 1)
  | .boolean | .int32 | .uint16 | .uint32 | .float32 | .string => some (5, 1)
  | _ => none

/-- `aes70_dsp_is_dsp_kind`. -/
def dspIsDspKind : Kind → Bool
  | .dynamics | .filterClassical | .filterParametric | .panBalance | .signalGen => true
  | _ => false

/-- `encode_value`. -/
def encodeValue (o : Obj) : List Field :=
  match o.kind with
  | .gain | .float32 | .levelSensor | .temperature | .frequency => [.f32 (toF32 o.num)]
  | .delay => [.f64 o.num]
  | .mute | .polarity => [.u8 (toU8 o.num)]
  | .boolean | .identify => [.u8 (flag (isNonzero o.num))]
  | .switch | .uint16 => [.u16 (toU16 o.num)]
  | .uint32 | .int32 => [.u32 (toU32 o.num)]
  | .string => [.string (o.str.getD [])]
  | _ => []

/-- The level-4 properties of OcaDynamics. -/
def DynState.property (d : DynState) (index : UInt16) : Option (List Field) :=
  match index with
  | 1 => some [.u8 (flag d.triggered)]
  | 2 => some [.f32 d.dynamicGain]
  | 3 => some [.u8 d.function]
  | 4 => some [.f32 d.ratio]
  | 5 => some [.f32 d.threshold, .f32 d.thresholdRef]
  | 6 => some [.u8 d.thresholdUnits]
  | 7 => some [.u8 d.detectorLaw]
  | 8 => some [.f32 d.attack]
  | 9 => some [.f32 d.release]
  | 10 => some [.f32 d.hold]
  | 11 => some [.f32 d.gainCeiling]
  | 12 => some [.f32 d.gainFloor]
  | 13 => some [.f32 d.knee]
  | 14 => some [.f32 d.ratio]
  | _ => none

/-- The level-4 properties of OcaFilterClassical. -/
def FltState.property (f : FltState) (index : UInt16) : Option (List Field) :=
  match index with
  | 1 => some [.f32 f.frequency]
  | 2 => some [.u8 f.passband]
  | 3 => some [.u8 f.shape]
  | 4 => some [.u16 f.order]
  | 5 => some [.f32 f.parameter]
  | _ => none

/-- The level-4 properties of OcaFilterParametric. -/
def PeqState.property (p : PeqState) (index : UInt16) : Option (List Field) :=
  match index with
  | 1 => some [.f32 p.frequency]
  | 2 => some [.u8 p.shape]
  | 3 => some [.f32 p.width]
  | 4 => some [.f32 p.inbandGain]
  | 5 => some [.f32 p.shapeParam]
  | _ => none

/-- The level-4 properties of OcaPanBalance. -/
def PanState.property (p : PanState) (index : UInt16) : Option (List Field) :=
  match index with
  | 1 => some [.f32 p.position]
  | 2 => some [.f32 p.midpointGain]
  | _ => none

/-- The level-4 properties of OcaSignalGenerator. -/
def SigState.property (s : SigState) (index : UInt16) : Option (List Field) :=
  match index with
  | 1 => some [.f32 s.freq1]
  | 2 => some [.f32 s.freq2]
  | 3 => some [.f32 s.level]
  | 4 => some [.u8 s.waveform]
  | 5 => some [.u8 s.sweepType]
  | 6 => some [.f32 s.sweepTime]
  | 7 => some [.u8 (flag s.sweepRepeat)]
  | 8 => some [.u8 (flag s.generating)]
  | _ => none

/-- `aes70_dsp_encode_property`. -/
def dspEncodeProperty (o : Obj) (level index : UInt16) : Option (List Field) :=
  if level ≠ 4 then none else
    match o.kind, o.priv with
    | .dynamics, .dynamics d => d.property index
    | .filterClassical, .filter f => f.property index
    | .filterParametric, .peq p => p.property index
    | .panBalance, .pan p => p.property index
    | .signalGen, .siggen s => s.property index
    | _, _ => none

namespace Device

variable {K : Kconfig}

/-- The last two cases of `aes70_object_encode_property`. -/
def encodeClassProperty (o : Obj) (level index : UInt16) : Option (List Field) :=
  match dspEncodeProperty o level index with
  | some fs => some fs
  | none => if primaryProperty o.kind = some (level, index) then some (encodeValue o) else none

/-- `aes70_object_encode_property`. -/
def encodeProperty (d : Device K) (i : ObjRef) (level index : UInt16) : Option (List Field) :=
  let o := d.obj i
  if level = 2 ∧ index = 1 then some [.u8 (flag o.enabled)]
  else if level = 2 ∧ index = 3 then some [.string (o.label.getD [])]
  else if o.kind = .deviceManager ∧ level = 3 ∧ index = 4 then some [.string d.deviceName]
  else if o.kind = .deviceManager ∧ level = 3 ∧ index = 6 then some [.string d.deviceRole]
  else encodeClassProperty o level index

end Device

end Aes70
