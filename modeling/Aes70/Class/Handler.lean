import Aes70.Device.Registry

/-!
# Method handlers

The shape of `aes70_method_fn`, and the combinators the handlers are written with. A handler sees
the device, its parameter reader, the response writer and the parameter count, and returns a
status; the object it is called on and the method index are ordinary arguments.

* `Handler.reading` : read parameters, then look at the latched error once.
* `Handler.reply` : write result fields and set the parameter count.
* `Handler.store` : change the device.
-/

namespace Aes70

/-- What a handler works on. -/
structure Call (K : Kconfig) where
  dev : Device K
  /-- `in`. -/
  rd : Reader
  /-- `out`. -/
  wr : Writer
  /-- `*pc`. -/
  pc : UInt8

/-- `aes70_method_fn`, for a fixed object and method index. -/
abbrev Handler (K : Kconfig) := Call K → Status × Call K

namespace Handler

variable {K : Kconfig} {α : Type}

/-- `return st`. -/
def ret (st : Status) : Handler K := fun c => (st, c)

/-- Write the result fields, `*pc = n`, `return AES70_OK`. -/
def reply (n : UInt8) (fs : List Field) : Handler K :=
  fun c => (.ok, { c with wr := c.wr.fields fs, pc := n })

/-- Look at the device. -/
def look (f : Device K → Handler K) : Handler K := fun c => f c.dev c

/-- Read parameters; `if (in->err) return AES70_BAD_FORMAT`. -/
def reading (r : Read α) (k : α → Handler K) : Handler K := fun c =>
  let (a, rd) := r c.rd
  if rd.err then (.badFormat, { c with rd }) else k a { c with rd }

/-- Change the device and `return AES70_OK`. -/
def store (f : Device K → Device K) : Handler K := fun c => (.ok, { c with dev := f c.dev })

/-- Change the device, then reply. -/
def storeReply (f : Device K → Device K) (n : UInt8) (fs : List Field) : Handler K :=
  fun c => reply n fs { c with dev := f c.dev }

/-- The range check of a setter: `if (v < lo || v > hi) return AES70_PARAMETER_OUT_OF_RANGE`. -/
def ranged {e m : ℕ} (v lo hi : Ieee.Binary e m) (k : Handler K) : Handler K :=
  if v.lt lo || hi.lt v then ret .parameterOutOfRange else k

theorem reading_of_ok {r : Read α} {k : α → Handler K} {c : Call K} {a : α} {rd : Reader}
    (h : r c.rd = (a, rd)) (he : rd.err = false) : reading r k c = k a { c with rd } := by
  unfold reading
  simp only [h, he, Bool.false_eq_true, if_false]

theorem reading_of_err {r : Read α} {k : α → Handler K} {c : Call K} (he : (r c.rd).2.err = true) :
    reading r k c = (.badFormat, { c with rd := (r c.rd).2 }) := by
  unfold reading
  simp only [he, if_true]

theorem then_call {p : Prop} [Decidable p] (hp : p) (h k : Handler K) (c : Call K) :
    (if p then h else k) c = h c := by rw [if_pos hp]

theorem else_call {p : Prop} [Decidable p] (hp : ¬p) (h k : Handler K) (c : Call K) :
    (if p then h else k) c = k c := by rw [if_neg hp]

/-! ### What a handler does to the device -/

/-- Every call of `h` on the device `d` ends with a status and a device that satisfy `Q`. -/
def Does (h : Handler K) (d : Device K) (Q : Status → Device K → Prop) : Prop :=
  ∀ c : Call K, c.dev = d → Q (h c).1 (h c).2.dev

/-- This call of `h` ends with a status and a device that satisfy `Q`. -/
def DoesAt (h : Handler K) (c : Call K) (Q : Status → Device K → Prop) : Prop :=
  Q (h c).1 (h c).2.dev

section Does

variable {d : Device K} {Q : Status → Device K → Prop}

theorem does_ret {st : Status} (h : Q st d) : Does (ret st) d Q := by
  rintro c rfl
  exact h

theorem does_reply {n : UInt8} {fs : List Field} (h : Q .ok d) : Does (reply n fs) d Q := by
  rintro c rfl
  exact h

theorem does_look {f : Device K → Handler K} (h : Does (f d) d Q) : Does (look f) d Q := by
  rintro c rfl
  exact h c rfl

theorem does_store {f : Device K → Device K} (h : Q .ok (f d)) : Does (store f) d Q := by
  rintro c rfl
  exact h

theorem does_storeReply {f : Device K → Device K} {n : UInt8} {fs : List Field}
    (h : Q .ok (f d)) : Does (storeReply f n fs) d Q := by
  rintro c rfl
  exact h

/-- `P` is what is known of the parameters read, whatever the reader. -/
theorem does_reading_of {r : Read α} {k : α → Handler K} {P : α → Prop} (hP : ∀ rd, P (r rd).1)
    (hbad : Q .badFormat d) (hk : ∀ a, P a → Does (k a) d Q) : Does (reading r k) d Q := by
  rintro c rfl
  unfold reading
  dsimp only
  split_ifs
  · exact hbad
  · exact hk _ (hP _) _ rfl

theorem does_reading {r : Read α} {k : α → Handler K} (hbad : Q .badFormat d)
    (hk : ∀ a, Does (k a) d Q) : Does (reading r k) d Q :=
  does_reading_of (P := fun _ => True) (fun _ => trivial) hbad fun a _ => hk a

/-- With what is known of the parameters the call reads. -/
theorem doesAt_reading {r : Read α} {k : α → Handler K} {c : Call K} (hbad : Q .badFormat c.dev)
    (hk : (r c.rd).2.err = false → Does (k (r c.rd).1) c.dev Q) :
    DoesAt (reading r k) c Q := by
  unfold DoesAt reading
  dsimp only
  split_ifs with herr
  · exact hbad
  · exact hk (by simpa using herr) _ rfl

theorem does_ranged {e m : ℕ} {v lo hi : Ieee.Binary e m} {k : Handler K}
    (hbad : Q .parameterOutOfRange d) (hk : Does k d Q) : Does (ranged v lo hi k) d Q := by
  unfold ranged
  split_ifs
  · exact does_ret hbad
  · exact hk

theorem does_ite {p : Prop} [Decidable p] {h k : Handler K} (hh : p → Does h d Q)
    (hk : ¬p → Does k d Q) : Does (if p then h else k) d Q := by
  split_ifs with hp
  · exact hh hp
  · exact hk hp

end Does

end Handler

/-! ### Class descriptors -/

/-- `aes70_class_desc_t` without the handlers. -/
structure ClassDesc where
  classId : List UInt16
  classVersion : UInt16
  className : Bytes

/-- `aes70_class_for_kind`: the table `k_desc`. -/
def classForKind : Kind → ClassDesc
  | .block => ⟨[1, 1, 3], 3, ascii "OcaBlock"⟩
  | .gain => ⟨[1, 1, 1, 5], 3, ascii "OcaGain"⟩
  | .mute => ⟨[1, 1, 1, 2], 3, ascii "OcaMute"⟩
  | .polarity => ⟨[1, 1, 1, 3], 3, ascii "OcaPolarity"⟩
  | .switch => ⟨[1, 1, 1, 4], 3, ascii "OcaSwitch"⟩
  | .delay => ⟨[1, 1, 1, 7], 3, ascii "OcaDelay"⟩
  | .boolean => ⟨[1, 1, 1, 1, 1], 3, ascii "OcaBooleanActuator"⟩
  | .int32 => ⟨[1, 1, 1, 1, 4], 3, ascii "OcaInt32Actuator"⟩
  | .uint16 => ⟨[1, 1, 1, 1, 7], 3, ascii "OcaUint16Actuator"⟩
  | .uint32 => ⟨[1, 1, 1, 1, 8], 3, ascii "OcaUint32Actuator"⟩
  | .float32 => ⟨[1, 1, 1, 1, 10], 3, ascii "OcaFloat32Actuator"⟩
  | .string => ⟨[1, 1, 1, 1, 12], 3, ascii "OcaStringActuator"⟩
  | .levelSensor => ⟨[1, 1, 2, 2], 3, ascii "OcaLevelSensor"⟩
  | .temperature => ⟨[1, 1, 2, 5], 3, ascii "OcaTemperatureSensor"⟩
  | .frequency => ⟨[1, 1, 1, 8], 3, ascii "OcaFrequencyActuator"⟩
  | .identify => ⟨[1, 1, 1, 21], 3, ascii "OcaIdentificationActuator"⟩
  | .dynamics => ⟨[1, 1, 1, 14], 3, ascii "OcaDynamics"⟩
  | .filterClassical => ⟨[1, 1, 1, 9], 3, ascii "OcaFilterClassical"⟩
  | .filterParametric => ⟨[1, 1, 1, 10], 3, ascii "OcaFilterParametric"⟩
  | .panBalance => ⟨[1, 1, 1, 6], 3, ascii "OcaPanBalance"⟩
  | .signalGen => ⟨[1, 1, 1, 17], 3, ascii "OcaSignalGenerator"⟩
  | .grouper => ⟨[1, 2, 2], 3, ascii "OcaGrouper"⟩
  | .matrix => ⟨[1, 1, 5], 4, ascii "OcaMatrix"⟩
  | .deviceManager => ⟨[1, 3, 1], 3, ascii "OcaDeviceManager"⟩
  | .subscriptionManager => ⟨[1, 3, 4], 4, ascii "OcaSubscriptionManager"⟩

end Aes70
