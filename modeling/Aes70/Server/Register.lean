import Aes70.Router.Checks
import Aes70.Router.Getters
import Aes70.Router.Parse
import Aes70.Server.Discovery
import Aes70.Server.Tree
import Aes70.Server.Values

/-!
# A value is a register

The value of an object is set and got from two sides: by controllers, as bytes, and by the
application, as a number of a C type. On the way it is a `double`, checked against the range on one
side and clamped to it on the other.

* `Reading` : the results of the typed getters; `Obj.typedGet` is the getter of the class.
* `Reading.wire`, `Reading.ofParams` : what the getters on the wire write, and the setters read.
* `Device.SetsTo` : the operations that set an object to a reading.
* `Action.Avoids` : the steps that store nothing in an object.
* `read_of_set` : whoever sets a value, after any such steps both sides read it.
-/

namespace Aes70

open Device Handler

variable {K : Kconfig}

/-! ### Casts -/

section Casts

theorem toU8_ofNat (a : UInt8) : toU8 (.ofNat a.toNat) = a := by
  have hlt := a.toNat_lt
  rw [toU8, Ieee.Binary.ofNat_eq_ofInt,
    Ieee.Binary.trunc_ofInt (by decide) (by decide) (by omega)]
  have hcast := toNat_ofInt8 (Int.natCast_nonneg a.toNat) (by exact_mod_cast hlt)
  exact UInt8.toNat_inj.1 (by exact_mod_cast hcast)

theorem toU16_ofNat (a : UInt16) : toU16 (.ofNat a.toNat) = a := by
  have hlt := a.toNat_lt
  rw [toU16, Ieee.Binary.ofNat_eq_ofInt,
    Ieee.Binary.trunc_ofInt (by decide) (by decide) (by omega)]
  have hcast := toNat_ofInt16 (Int.natCast_nonneg a.toNat) (by exact_mod_cast hlt)
  exact UInt16.toNat_inj.1 (by exact_mod_cast hcast)

theorem toU32_ofNat (a : UInt32) : toU32 (.ofNat a.toNat) = a := by
  have hlt := a.toNat_lt
  rw [toU32, Ieee.Binary.ofNat_eq_ofInt,
    Ieee.Binary.trunc_ofInt (by decide) (by decide) (by omega)]
  have hcast := toNat_ofInt32 (Int.natCast_nonneg a.toNat) (by exact_mod_cast hlt)
  exact UInt32.toNat_inj.1 (by exact_mod_cast hcast)

/-- A signed number is sent as an unsigned one. -/
theorem toU32_ofInt (a : Int32) : toU32 (.ofInt a.toInt) = a.toUInt32 := by
  have hlo := a.le_toInt
  have hhi := a.toInt_lt
  rw [toU32, Ieee.Binary.trunc_ofInt (by decide) (by decide) (by omega)]
  have hsame : (UInt32.ofInt a.toInt).toInt32 = a := Int32.toInt_inj.1 (toInt_ofInt32 hlo hhi)
  simpa using congrArg Int32.toUInt32 hsame

theorem isNonzero_flag (b : Bool) : isNonzero (.ofNat (flag b).toNat) = b := by
  cases b <;> decide

theorem toF32_toF64 {x : F32} (hx : x.isNaN = false) : toF32 (toF64 x) = x :=
  Ieee.Binary.convert_convert (by decide) (by decide) (by decide) hx

end Casts

/-! ### Readings -/

/-- What a typed getter of the application returns. -/
inductive Reading
  | float (v : F32)
  | double (v : F64)
  | bool (b : Bool)
  | uint16 (v : UInt16)
  | uint32 (v : UInt32)
  | int32 (v : Int32)
deriving DecidableEq

/-- The typed getter of the class, such as `aes70_gain_get`. The sensors have none. -/
def Obj.typedGet (o : Obj) : Option Reading :=
  match o.kind with
  | .gain | .float32 | .frequency => some (.float (toF32 o.num))
  | .mute => some (.bool (o.num.eqv (.ofNat 1)))
  | .polarity => some (.bool (o.num.eqv (.ofNat 2)))
  | .switch | .uint16 => some (.uint16 (toU16 o.num))
  | .delay => some (.double o.num)
  | .boolean | .identify => some (.bool (isNonzero o.num))
  | .uint32 => some (.uint32 (toU32 o.num))
  | .int32 => some (.int32 (Int32.ofInt o.num.trunc))
  | _ => none

namespace Reading

/-- A reading of the class, and a number. -/
def OfKind (kind : Kind) : Reading → Prop
  | .float v => kind ∈ [.gain, .float32, .frequency, .levelSensor, .temperature] ∧ v.isNaN = false
  | .double v => kind = .delay ∧ v.isNaN = false
  | .bool _ => kind ∈ [.mute, .polarity, .boolean, .identify]
  | .uint16 _ => kind ∈ [.switch, .uint16]
  | .uint32 _ => kind = .uint32
  | .int32 _ => kind = .int32

/-- The number that the typed setter of the class asks for. -/
def num (kind : Kind) : Reading → F64
  | .float v => toF64 v
  | .double v => v
  | .bool b =>
    match kind with
    | .mute => .ofNat (if b then 1 else 2)
    | .polarity => .ofNat (if b then 2 else 1)
    | _ => .ofNat (flag b).toNat
  | .uint16 v => .ofNat v.toNat
  | .uint32 v => .ofNat v.toNat
  | .int32 v => .ofInt v.toInt

/-- What the getter of the class on the wire writes. -/
def wire (kind : Kind) : Reading → Bytes
  | .float v => wr32 ⟨v.bits⟩
  | .double v => BigEndian.encode 8 v.bits.toNat
  | .bool b =>
    match kind with
    | .mute => [if b then 1 else 2]
    | .polarity => [if b then 2 else 1]
    | _ => [flag b]
  | .uint16 v => wr16 v
  | .uint32 v => wr32 v
  | .int32 v => wr32 v.toUInt32

/-- What the setter of the class on the wire reads. -/
def ofParams (kind : Kind) (ps : Bytes) : Option Reading :=
  match kind with
  | .gain | .float32 | .frequency => some (.float ⟨(rd32 (ps.take 4)).toBitVec⟩)
  | .delay => some (.double ⟨(UInt64.ofNat (BigEndian.decode (ps.take 8))).toBitVec⟩)
  | .mute => some (.bool (ps.headD 0 == 1))
  | .polarity => some (.bool (ps.headD 0 == 2))
  | .boolean | .identify => some (.bool (ps.headD 0 != 0))
  | .switch | .uint16 => some (.uint16 (rd16 (ps.take 2)))
  | .uint32 => some (.uint32 (rd32 (ps.take 4)))
  | .int32 => some (.int32 (rd32 (ps.take 4)).toInt32)
  | _ => none

section Num

variable {o : Obj} {r : Reading}

/-- The getter of the class returns the reading that its number is stored for. -/
theorem typedGet_num (h : r.OfKind o.kind) (hs : o.kind ∉ [.levelSensor, .temperature]) :
    ({ o with num := r.num o.kind } : Obj).typedGet = some r := by
  cases r with
  | float v =>
    obtain ⟨hmem, hnum⟩ := h
    simp only [List.mem_cons, List.not_mem_nil, or_false] at hmem hs
    rcases hmem with hk | hk | hk | hk | hk <;>
      simp_all [Obj.typedGet, num, toF32_toF64]
  | double v =>
    obtain ⟨hk, -⟩ := h
    simp [Obj.typedGet, num, hk]
  | bool b =>
    simp only [OfKind, List.mem_cons, List.not_mem_nil, or_false] at h
    rcases h with hk | hk | hk | hk <;> simp only [Obj.typedGet, num, hk, isNonzero_flag]
    · cases b <;> decide
    · cases b <;> decide
  | uint16 v =>
    simp only [OfKind, List.mem_cons, List.not_mem_nil, or_false] at h
    rcases h with hk | hk <;> simp only [Obj.typedGet, num, hk, toU16_ofNat]
  | uint32 v =>
    have hk : o.kind = .uint32 := h
    simp only [Obj.typedGet, num, hk, toU32_ofNat]
  | int32 v =>
    have hk : o.kind = .int32 := h
    have hlo := v.le_toInt
    have hhi := v.toInt_lt
    simp only [Obj.typedGet, num, hk]
    rw [Ieee.Binary.trunc_ofInt (by decide) (by decide) (by omega), Int32.ofInt_toInt]

/-- The getter of the class on the wire writes it. -/
theorem encode_num (h : r.OfKind o.kind) :
    Field.encodeAll (encodeValue { o with num := r.num o.kind }) = r.wire o.kind := by
  cases r with
  | float v =>
    obtain ⟨hmem, hnum⟩ := h
    simp only [List.mem_cons, List.not_mem_nil, or_false] at hmem
    rcases hmem with hk | hk | hk | hk | hk <;>
      simp [encodeValue, num, wire, hk, toF32_toF64 hnum, Field.encodeAll, Field.encode,
        Field.pieces]
  | double v =>
    obtain ⟨hk, -⟩ := h
    simp [encodeValue, num, wire, hk, Field.encodeAll, Field.encode, Field.pieces]
  | bool b =>
    simp only [OfKind, List.mem_cons, List.not_mem_nil, or_false] at h
    rcases h with hk | hk | hk | hk <;> simp only [encodeValue, num, wire, hk, isNonzero_flag]
    · cases b <;> decide
    · cases b <;> decide
    · rfl
    · rfl
  | uint16 v =>
    simp only [OfKind, List.mem_cons, List.not_mem_nil, or_false] at h
    rcases h with hk | hk <;>
      simp [encodeValue, num, wire, hk, toU16_ofNat, Field.encodeAll, Field.encode, Field.pieces]
  | uint32 v =>
    have hk : o.kind = .uint32 := h
    simp [encodeValue, num, wire, hk, toU32_ofNat, Field.encodeAll, Field.encode, Field.pieces]
  | int32 v =>
    have hk : o.kind = .int32 := h
    simp [encodeValue, num, wire, hk, toU32_ofInt, Field.encodeAll, Field.encode, Field.pieces]

end Num

end Reading

/-! ### Parameters -/

/-- A reader that succeeds takes `n` bytes, which make its value. -/
def Read.Takes {α : Type} (r : Read α) (n : ℕ) (f : Bytes → α) : Prop :=
  ∀ rd, (r rd).2.err = false →
    rd.err = false ∧ n ≤ rd.remaining ∧ r rd = (f (rd.peek n), rd.advance n)

section Params

variable {α β γ : Type} {n m : ℕ} {p : Ptr} {ps : Bytes} {o : Obj} {v : F64} {w : ParamWrite}

theorem takes_fixed (zero : α) (f : Bytes → α) : (Read.fixed n zero f).Takes n f := by
  intro rd h
  obtain ⟨he, hle⟩ := Read.fixed_ok h
  exact ⟨he, hle, Read.fixed_of_le he hle⟩

theorem Read.Takes.map {r : Read β} {f : Bytes → β} (h : r.Takes n f) (g : β → α) :
    Read.Takes (g <$> r) n fun bs => g (f bs) := by
  intro rd herr
  obtain ⟨he, hle, hval⟩ := h rd herr
  exact ⟨he, hle, congrArg (fun x => (g x.1, x.2)) hval⟩

/-- Two readers one after the other. -/
theorem Read.Takes.pair {r : Read α} {s : Read β} {f : Bytes → α} {g : Bytes → β}
    (hr : r.Takes n f) (hs : s.Takes m g) :
    Read.Takes (do return (← r, ← s)) (n + m) fun bs => (f (bs.take n), g (bs.drop n)) := by
  intro rd herr
  obtain ⟨he, hm, hval⟩ := hs (r rd).2 herr
  obtain ⟨he', hn, hval'⟩ := hr rd he
  have hpair : (do return (← r, ← s) : Read (α × β)) rd =
      (((r rd).1, (s (r rd).2).1), (s (r rd).2).2) := rfl
  have hle : n + m ≤ rd.remaining := by
    rw [hval', Reader.remaining_advance] at hm
    omega
  have hfirst : (rd.peek (n + m)).take n = rd.peek n := Ptr.take_read _ (Nat.le_add_right n m)
  have hsecond : (rd.peek (n + m)).drop n = (rd.advance n).peek m := by
    rw [Reader.peek, Ptr.drop_read, Nat.add_sub_cancel_left, Ptr.add_add]
    rfl
  refine ⟨he', hle, ?_⟩
  rw [hpair, hval, hval']
  dsimp only
  rw [hfirst, hsecond, Reader.advance_advance]

theorem takes_u8 : Read.u8.Takes 1 fun bs => UInt8.ofNat (BigEndian.decode bs) := takes_fixed 0 _

theorem takes_u16 : Read.u16.Takes 2 rd16 := takes_fixed 0 _

theorem takes_u32 : Read.u32.Takes 4 rd32 := takes_fixed 0 _

theorem takes_f32 : Read.f32.Takes 4 fun bs => ⟨(rd32 bs).toBitVec⟩ :=
  takes_u32.map fun u => (⟨u.toBitVec⟩ : F32)

theorem takes_f64 :
    Read.f64.Takes 8 fun bs => ⟨(UInt64.ofNat (BigEndian.decode bs)).toBitVec⟩ :=
  (takes_fixed 0 fun bs => UInt64.ofNat (BigEndian.decode bs)).map fun u => (⟨u.toBitVec⟩ : F64)

/-- What is made of a value that is read and not refused is made of the bytes in front. -/
theorem made_of_params {r : Read α} {f : Bytes → α} (hr : r.Takes n f) {bad : α → Bool}
    {k : α → γ} {x : γ} (hps : p.read ps.length = ps)
    (h : (if (r (.init p ps.length)).2.err || bad (r (.init p ps.length)).1 then none
      else some (k (r (.init p ps.length)).1)) = some x) :
    (ps.take n).length = n ∧ bad (f (ps.take n)) = false ∧ x = k (f (ps.take n)) := by
  split_ifs at h with hbad
  obtain ⟨herr, hin⟩ := Bool.or_eq_false_iff.1 (Bool.eq_false_iff.2 hbad)
  obtain ⟨-, hle, hval⟩ := hr _ herr
  have hn : n ≤ ps.length := hle
  have hpeek : (Reader.init p ps.length).peek n = ps.take n := by
    conv_rhs => rw [← hps]
    rw [Ptr.take_read p hn]
    exact congrArg (·.read n) (Ptr.add_zero p)
  rw [hval, hpeek] at h hin
  exact ⟨List.length_take_of_le hn, hin, (Option.some.inj h).symm⟩

/-- A value that is accepted is made of the bytes in front. -/
theorem accepted_params {r : Read α} {f : Bytes → α} (hr : r.Takes n f) {bad : α → Bool}
    {val : α → F64} (hps : p.read ps.length = ps)
    (h : accepted r bad val (.init p ps.length) = some v) :
    (ps.take n).length = n ∧ bad (f (ps.take n)) = false ∧ v = val (f (ps.take n)) :=
  made_of_params hr hps h

theorem acceptedWrite_params {r : Read α} {f : Bytes → α} (hr : r.Takes n f) {bad : α → Bool}
    {k : α → ParamWrite} (hps : p.read ps.length = ps)
    (h : acceptedWrite r bad k (.init p ps.length) = some w) :
    (ps.take n).length = n ∧ bad (f (ps.take n)) = false ∧ w = k (f (ps.take n)) :=
  made_of_params hr hps h

theorem decode_head (h : (ps.take 1).length = 1) :
    UInt8.ofNat (BigEndian.decode (ps.take 1)) = ps.headD 0 := by
  cases ps with
  | nil => cases h
  | cons b bs => simp [BigEndian.decode]

/-- **A setter** stores the number of the reading that its parameters are. -/
theorem ofParams_of_setting (hps : p.read ps.length = ps)
    (h : setting o (.init p ps.length) = some v) :
    ∃ r, Reading.ofParams o.kind ps = some r ∧ v = r.num o.kind ∧
      (v.isNaN = false → r.OfKind o.kind) := by
  cases hk : o.kind with
  | gain | frequency =>
    simp only [setting, hk] at h
    obtain ⟨-, -, rfl⟩ := accepted_params takes_f32 hps h
    refine ⟨_, rfl, rfl, fun hnum => ⟨by decide, ?_⟩⟩
    rwa [isNaN_toF64] at hnum
  | float32 =>
    simp only [setting, hk] at h
    obtain ⟨-, -, rfl⟩ := accepted_params (takes_f32.map toF64) hps h
    refine ⟨_, rfl, rfl, fun hnum => ⟨by decide, ?_⟩⟩
    rwa [id, isNaN_toF64] at hnum
  | delay =>
    simp only [setting, hk] at h
    obtain ⟨-, -, rfl⟩ := accepted_params takes_f64 hps h
    exact ⟨_, rfl, rfl, fun hnum => ⟨rfl, hnum⟩⟩
  | int32 =>
    simp only [setting, hk] at h
    obtain ⟨-, -, rfl⟩ := accepted_params
      (takes_u32.map fun u => (.ofInt u.toInt32.toInt : F64)) hps h
    exact ⟨_, rfl, rfl, fun _ => rfl⟩
  | uint32 =>
    simp only [setting, hk] at h
    obtain ⟨-, -, rfl⟩ := accepted_params (takes_u32.map fun u => (.ofNat u.toNat : F64)) hps h
    exact ⟨_, rfl, rfl, fun _ => rfl⟩
  | uint16 =>
    simp only [setting, hk] at h
    obtain ⟨-, -, rfl⟩ := accepted_params (takes_u16.map fun u => (.ofNat u.toNat : F64)) hps h
    exact ⟨_, rfl, rfl, fun _ => by simp [Reading.OfKind]⟩
  | switch =>
    simp only [setting, hk] at h
    obtain ⟨-, -, rfl⟩ := accepted_params takes_u16 hps h
    exact ⟨_, rfl, rfl, fun _ => by simp [Reading.OfKind]⟩
  | mute | polarity =>
    simp only [setting, hk] at h
    obtain ⟨hlen, hin, rfl⟩ := accepted_params takes_u8 hps h
    rw [decode_head hlen] at hin ⊢
    refine ⟨_, rfl, ?_, fun _ => by simp [Reading.OfKind]⟩
    generalize ps.headD 0 = x at hin ⊢
    -- the setter refuses everything but 1 and 2
    obtain rfl | rfl : x = 1 ∨ x = 2 := by
      by_contra! hne
      simp [hne] at hin
    · rfl
    · rfl
  | boolean | identify =>
    simp only [setting, hk] at h
    obtain ⟨hlen, -, rfl⟩ := accepted_params takes_u8 hps h
    rw [decode_head hlen]
    exact ⟨_, rfl, rfl, fun _ => by simp [Reading.OfKind]⟩
  | _ => simp [setting, hk] at h

end Params

/-! ### A set and a get -/

namespace Action

/-- The step stores nothing in object `i`. -/
def Avoids (i : ObjRef) (d : Device K) (a : Action K) : Prop := ∀ w ∈ (a.effects d).nums, w.1 ≠ i

end Action

section Access

variable {d d' : Device K} {i : ObjRef} {level : UInt16} {conn conn' : ℕ} {cmd get : Command}
  {rd rd' : Reader} {v : F64}

/-- A setter that is answered with OK has accepted a value. -/
theorem setter_accepts {c : Call K} {h : ObjRef → UInt16 → Handler K}
    (hh : handlerFor (c.dev.obj i).kind level = some h)
    (hp : primaryProperty (c.dev.obj i).kind = some (level, 1)) (hs : (c.dev.obj i).kind ≠ .string)
    (hok : (h i 2 c).1 = .ok) : ∃ v, setting (c.dev.obj i) c.rd = some v := by
  refine Option.isSome_iff_exists.1 ?_
  cases hk : (c.dev.obj i).kind with
  | levelSensor | temperature =>
    rw [hk] at hh hp
    obtain rfl := (Prod.mk.inj (Option.some.inj hp)).1
    obtain rfl := Option.some.inj hh
    cases hok
  | boolean | float32 | int32 | uint16 | uint32 =>
    rw [hk] at hh hp
    obtain rfl := (Prod.mk.inj (Option.some.inj hp)).1
    obtain rfl := Option.some.inj hh
    have hbasic : basicActuatorDispatch i 2 c = setSetting i (c.dev.obj i) c := rfl
    rw [hbasic] at hok
    simp only [setSetting, hk] at hok
    simp only [setting, hk]
    exact accepted_of_ok (i := i) (l := 5) (fun _ => rfl) hok
  | gain | frequency | mute | polarity | delay | identify =>
    rw [hk] at hh hp
    obtain rfl := (Prod.mk.inj (Option.some.inj hp)).1
    obtain rfl := Option.some.inj hh
    simp only [setting, hk]
    exact accepted_of_ok (i := i) (l := 4) (fun _ => rfl) hok
  | switch =>
    rw [hk] at hh hp
    obtain rfl := (Prod.mk.inj (Option.some.inj hp)).1
    obtain rfl := Option.some.inj hh
    have hswitch : switchDispatch i 2 c = reading Read.u16 (fun p =>
      if (c.dev.obj i).swCount = 0 ∨ (c.dev.obj i).swCount - 1 < p then ret .parameterOutOfRange
      else store fun d => d.commitNum i (.ofNat p.toNat) 4 1 true) c := rfl
    rw [hswitch] at hok
    simp only [setting, hk]
    exact accepted_of_ok (i := i) (l := 4) (fun _ => by simp only [decide_eq_true_eq]) hok
  | string => exact absurd hk hs
  | _ =>
    rw [hk] at hp
    cases hp

/-- **A set** that is answered with OK leaves the value it carries in the object. -/
theorem num_of_set (hf : d.find cmd.target = some i)
    (hp : primaryProperty (d.obj i).kind = some (cmd.level, 1)) (hs : (d.obj i).kind ≠ .string)
    (hidx : cmd.index = 2) (hok : (answer K.txBufferSize conn cmd rd d).response.status = .ok) :
    ∃ v, setting (d.obj i) rd = some v ∧
      (((Operation.command conn cmd rd).run d).obj i).num = v := by
  let c : Call K := ⟨{ d with activeConn := some conn }, rd, .init K.txBufferSize, 0⟩
  have hexec : (execCommand conn cmd c).1 = .ok := hok
  have hfind : c.dev.find cmd.target = some i := hf
  rw [execCommand_of_find hfind] at hexec
  dsimp only at hexec
  obtain ⟨h, hh⟩ : ∃ h, handlerFor (c.dev.obj i).kind cmd.level = some h :=
    handlerFor_of_primaryProperty hp
  have hgate := gate_of_ok hexec
  rw [objectDispatch_of_handler hh hgate rfl, hidx] at hexec
  obtain ⟨v, hv⟩ := setter_accepts hh hp hs hexec
  refine ⟨v, hv, ?_⟩
  have hdev : (execCommand conn cmd c).2.dev.obj i =
      (c.dev.commitNum i v cmd.level 1 true).obj i := by
    rw [execCommand_of_find hfind]
    dsimp only
    rw [objectDispatch_of_handler hh hgate rfl, hidx,
      setter_setsAt (i := i) (c := c) hh hp hs rfl rfl, hv]
    rfl
  have hrun : ((Operation.command conn cmd rd).run d).obj i =
      (execCommand conn cmd c).2.dev.obj i := rfl
  rw [hrun, hdev]
  exact num_commitNum (find_lt hfind) v cmd.level 1

/-- A step that avoids the object leaves its value, its number and its kind. -/
theorem avoids_step {a : Action K} (hi : i < d.objects.length) (ha : a.Legal d) (h : a.Avoids i d) :
    i < (a.run d).objects.length ∧ ((a.run d).obj i).ono = (d.obj i).ono ∧
      ((a.run d).obj i).kind = (d.obj i).kind ∧ ((a.run d).obj i).num = (d.obj i).num := by
  have hchanges := action_changes ha
  obtain ⟨hlt, hono, hkind⟩ := hchanges.old hi
  refine ⟨hlt, hono, hkind, ?_⟩
  have hnone : lastWrite (a.effects d).nums i = none := by
    refine Option.eq_none_iff_forall_ne_some.2 fun v hv => ?_
    exact h _ (mem_of_lastWrite hv) rfl
  obtain hnum | hnum := hchanges.oldNum hi
  · rw [hnum, hnone]
    rfl
  · exact hnum

theorem encodeProperty_value {index : UInt16}
    (hp : primaryProperty (d.obj i).kind = some (level, index)) :
    d.encodeProperty i level index = some (encodeValue (d.obj i)) := by
  have hshape : level ≠ 2 ∧ level ≠ 3 ∧ dspEncodeProperty (d.obj i) level index = none := by
    unfold dspEncodeProperty
    cases hk : (d.obj i).kind <;> rw [hk] at hp <;>
      simp only [primaryProperty, Option.some.injEq, Prod.mk.injEq, reduceCtorEq] at hp
    all_goals
      obtain ⟨rfl, rfl⟩ := hp
      exact ⟨by decide, by decide, by simp⟩
  obtain ⟨hl2, hl3, hnone⟩ := hshape
  simp [Device.encodeProperty, Device.encodeClassProperty, hl2, hl3, hnone, hp]

/-- **A get** is answered with the value of the object, first. -/
theorem answer_of_get {room : ℕ} (hf : d.find get.target = some i)
    (hp : primaryProperty (d.obj i).kind = some (get.level, 1)) (hs : (d.obj i).kind ≠ .string)
    (hidx : get.index = 1) (hroom : 24 ≤ room) :
    (answer room conn get rd d).response.status = .ok ∧
      Field.encodeAll (encodeValue (d.obj i)) <+: (answer room conn get rd d).response.params := by
  have hannounces : (d.obj i).Announces (get.level, 1) (get.level, 1) := .value hp
  obtain ⟨bs, hbs, -, hanswer⟩ := answer_announced hannounces
  rw [Device.wireProperty, encodeProperty_value hp] at hbs
  obtain rfl := Option.some.inj hbs
  obtain ⟨hstatus, -, hparams, hfits⟩ := hanswer room conn get rd hf (by rw [hidx])
  have hsize : (Field.encodeAll (encodeValue (d.obj i))).length ≤ 8 :=
    (Field.length_encodeAll _).trans_le (encodeValue_size hs)
  rw [hparams (hfits (by omega))]
  exact ⟨hstatus, List.prefix_append _ _⟩

/-- The operation sets object `i` to the reading: a setter that is answered with OK, or a request of
the application, which is clamped. -/
inductive Device.SetsTo (d : Device K) (i : ObjRef) (r : Reading) : Operation → Prop
  | setter {conn : ℕ} {cmd : Command} {rd : Reader} (hf : d.find cmd.target = some i)
    (hp : primaryProperty (d.obj i).kind = some (cmd.level, 1)) (hidx : cmd.index = 2)
    (hcarries : Carries cmd (cmd, rd)) (hr : Reading.ofParams (d.obj i).kind cmd.params = some r)
    (hok : (answer K.txBufferSize conn cmd rd d).response.status = .ok) :
    SetsTo d i r (.command conn cmd rd)
  | request {v : F64} (hi : i < d.objects.length)
    (hv : clampSet (d.obj i) v = r.num (d.obj i).kind) : SetsTo d i r (.set (setNum (d.obj i) v))

theorem Reading.OfKind.ne_string {r : Reading} {kind : Kind} (h : r.OfKind kind) :
    kind ≠ .string ∧ dspIsDspKind kind = false ∧
      ∃ level, primaryProperty kind = some (level, 1) := by
  cases r <;> simp only [OfKind, List.mem_cons, List.not_mem_nil, or_false] at h <;>
    cases kind <;> simp_all [dspIsDspKind, primaryProperty]

/-- **What is set** is the number of the reading. -/
theorem num_of_setsTo (h : (control K).Reach d) {r : Reading} (hr : r.OfKind (d.obj i).kind)
    {op : Operation} (hop : d.SetsTo i r op) :
    i < d.objects.length ∧ ((op.run d).obj i).num = r.num (d.obj i).kind := by
  obtain ⟨hs, hdsp, level, hp⟩ := hr.ne_string
  cases hop with
  | setter hf hp hidx hcarries hparams hok =>
    obtain ⟨v, hset, hv⟩ := num_of_set hf hp hs hidx hok
    obtain ⟨-, p, rfl, hps⟩ := hcarries
    obtain ⟨r', hr', rfl, -⟩ := ofParams_of_setting hps hset
    obtain rfl : r' = r := Option.some.inj (hr'.symm.trans hparams)
    exact ⟨find_lt hf, hv⟩
  | @request v hi hv =>
    have hf : d.find (setNum (d.obj i) v).ono = some i := (reach_tree h).registry.find_ono hi
    have hrun : (Operation.set (setNum (d.obj i) v)).run d =
        d.commitNum i (clampSet (d.obj i) v) level 1 false := by
      change d.applySet (setNum (d.obj i) v) = _
      simp only [applySet, hf, hdsp, hp, Bool.false_eq_true, if_false]
      rfl
    rw [hrun, obj_eq_of_core (core_commitNum_app d i _ level 1), obj_writeNum hi, if_pos rfl]
    exact ⟨hi, hv⟩

/-- **A value is read as it was set**, by the application and by every controller, after any steps
that store nothing in the object. -/
theorem read_of_set (h : (control K).Reach d) {r : Reading} (hr : r.OfKind (d.obj i).kind)
    {op : Operation} (hop : d.SetsTo i r op) {as : List (Action K)}
    (hrun : ((control K).restrict fun d a => a.Avoids i d).Run (op.run d) as d')
    (htarget : get.target = (d.obj i).ono)
    (hget : primaryProperty (d.obj i).kind = some (get.level, get.index)) :
    ((d.obj i).kind ∉ [.levelSensor, .temperature] → (d'.obj i).typedGet = some r) ∧
      (answer K.txBufferSize conn get rd d').response.status = .ok ∧
        r.wire (d.obj i).kind <+: (answer K.txBufferSize conn get rd d').response.params := by
  obtain ⟨hi, hv⟩ := num_of_setsTo h hr hop
  obtain ⟨hs, -, level, hp⟩ := hr.ne_string
  have hidx : get.index = 1 := (Prod.mk.inj (Option.some.inj (hget.symm.trans hp))).2
  let a : Action K := .operation op
  have hlegal : a.Legal d := trivial
  have hadmitted : (control K).ok d a := hlegal
  have hreach : (control K).Reach (a.run d) := h.step hadmitted
  obtain ⟨hlt, hono, hkind⟩ := (action_changes hlegal).old hi
  -- the object keeps the value that was set
  have hkept : i < d'.objects.length ∧ (d'.obj i).ono = (d.obj i).ono ∧
      (d'.obj i).kind = (d.obj i).kind ∧ (d'.obj i).num = r.num (d.obj i).kind := by
    refine hrun.invariant (I := fun e => i < e.objects.length ∧ (e.obj i).ono = (d.obj i).ono ∧
      (e.obj i).kind = (d.obj i).kind ∧ (e.obj i).num = r.num (d.obj i).kind)
      ⟨hlt, hono, hkind, hv⟩ ?_
    intro e b ⟨hi, hono, hkind, hnum⟩ hok
    obtain ⟨hi', hono', hkind', hnum'⟩ := avoids_step hi hok.1 hok.2
    exact ⟨hi', hono'.trans hono, hkind'.trans hkind, hnum'.trans hnum⟩
  obtain ⟨hi', hono', hkind', hnum'⟩ := hkept
  have hreach' := hreach.run hrun.of_restrict
  have hfind : d'.find get.target = some i := by
    have hfind := (reach_tree hreach').registry.find_ono hi'
    rwa [hono', ← htarget] at hfind
  have hr' : r.OfKind (d'.obj i).kind := hkind'.symm ▸ hr
  have hself : ({ d'.obj i with num := r.num (d'.obj i).kind } : Obj) = d'.obj i := by
    rw [hkind', ← hnum']
  refine ⟨fun hsensor => ?_, ?_⟩
  · have hreading := Reading.typedGet_num hr' (by rwa [hkind'])
    rwa [hself] at hreading
  · have hwire := Reading.encode_num hr'
    rw [hself, hkind'] at hwire
    have hroom : 24 ≤ K.txBufferSize := le_trans (by decide) K.txBufferSize_range.1
    rw [← hwire]
    refine answer_of_get hfind ?_ (by rwa [hkind']) hidx hroom
    rw [hkind', hget, hidx]

end Access

namespace Sample

/-- `SetGain` of -6 dB. -/
def lowerGain : Command := ⟨5, 4096, 4, 2, 1, [0xC0, 0xC0, 0, 0]⟩

/-- `GetGain`. -/
def readGain : Command := ⟨6, 4096, 4, 1, 0, []⟩

/-- The gain is lowered. -/
def lowered : Device .default :=
  (Operation.command 0 lowerGain (Reader.ofBytes lowerGain.params)).run gain

/-- Another controller names the root block. -/
theorem read_lowerGain :
    let d := (sent 100 2 9 1 [0, 1, 0x41]).run lowered
    let a := answer 2048 1 readGain (Reader.ofBytes []) d
    (d.obj 3).typedGet = some (.float ⟨0xC0C00000⟩) ∧ a.response.status = .ok ∧
      [0xC0, 0xC0, 0, 0] <+: a.response.params := by
  have hcarries : Carries lowerGain (lowerGain, Reader.ofBytes lowerGain.params) :=
    ⟨rfl, _, rfl, Ptr.read_ofBytes _ _⟩
  have hsets : gain.SetsTo 3 (.float ⟨0xC0C00000⟩)
      (.command 0 lowerGain (Reader.ofBytes lowerGain.params)) :=
    .setter (by decide) rfl rfl hcarries (by decide) (by decide +kernel)
  have havoids : (sent 100 2 9 1 [0, 1, 0x41]).Avoids 3 lowered := by
    unfold Action.Avoids
    decide +kernel
  have hlegal : (control .default).ok lowered (sent 100 2 9 1 [0, 1, 0x41]) := trivial
  have hrun := Machine.Run.cons (M := (control .default).restrict fun d a => a.Avoids 3 d)
    ⟨hlegal, havoids⟩ (.nil _)
  have htarget : readGain.target = (gain.obj 3).ono := by decide
  have hkind : Reading.OfKind (gain.obj 3).kind (.float ⟨0xC0C00000⟩) := ⟨by decide, by decide⟩
  obtain ⟨hreading, hanswer⟩ := read_of_set reach_gain hkind hsets hrun htarget rfl
  exact ⟨hreading (by decide), hanswer⟩

end Sample

end Aes70
