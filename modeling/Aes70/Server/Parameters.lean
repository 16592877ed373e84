import Aes70.Server.Getters
import Aes70.Server.Register

/-!
# A parameter of a DSP class is a register

The parameters of a DSP object are set and got one by one, like the values of the scalar classes.
Writes of other parameters of the same object do not matter, with one exception: the ratio and the
slope of OcaDynamics are one field.

* `Sel.cell` : the field that a parameter is stored in.
* `property_write_apart` : a write into another field does not show.
* `encode_param` : the getter of a parameter writes what its setter read.
* `get_of_param` : a set, any steps that do not write the field, and a get.
-/

namespace Aes70

open Device Handler

variable {K : Kconfig}

/-! ### Fields -/

/-- The field that the parameter is stored in, by the parameter that names it: `dyn_write` stores
a slope as the ratio. -/
def Sel.cell : Sel → Sel
  | .dynSlope => .dynRatio
  | sel => sel

section Cells

variable {sel sel' : Sel} {v v2 : F64} {o : Obj} {w : ParamWrite}

theorem DynState.property_write_apart (s : DynState) (hk : sel.kind = some .dynamics)
    (h : sel'.cell ≠ sel.cell) :
    (s.write sel' v v2).property (selToProp sel).2 = s.property (selToProp sel).2 := by
  cases sel <;> cases hk <;> cases sel' <;> first | rfl | exact absurd rfl h

theorem FltState.property_write_apart (s : FltState) (hk : sel.kind = some .filterClassical)
    (h : sel'.cell ≠ sel.cell) :
    (s.write sel' v).property (selToProp sel).2 = s.property (selToProp sel).2 := by
  cases sel <;> cases hk <;> cases sel' <;> first | rfl | exact absurd rfl h

theorem PeqState.property_write_apart (s : PeqState) (hk : sel.kind = some .filterParametric)
    (h : sel'.cell ≠ sel.cell) :
    (s.write sel' v).property (selToProp sel).2 = s.property (selToProp sel).2 := by
  cases sel <;> cases hk <;> cases sel' <;> first | rfl | exact absurd rfl h

theorem PanState.property_write_apart (s : PanState) (hk : sel.kind = some .panBalance)
    (h : sel'.cell ≠ sel.cell) :
    (s.write sel' v).property (selToProp sel).2 = s.property (selToProp sel).2 := by
  cases sel <;> cases hk <;> cases sel' <;> first | rfl | exact absurd rfl h

theorem SigState.property_write_apart (s : SigState) (hk : sel.kind = some .signalGen)
    (h : sel'.cell ≠ sel.cell) :
    (s.write sel' v).property (selToProp sel).2 = s.property (selToProp sel).2 := by
  cases sel <;> cases hk <;> cases sel' <;> first | rfl | exact absurd rfl h

/-- **A write into another field** of the object does not change what a parameter is sent as. -/
theorem dspEncodeProperty_write_apart (hk : sel.kind = some o.kind) (h : w.sel.cell ≠ sel.cell) :
    dspEncodeProperty { o with priv := o.priv.write w } (selToProp sel).1 (selToProp sel).2 =
      dspEncodeProperty o (selToProp sel).1 (selToProp sel).2 := by
  unfold dspEncodeProperty
  split_ifs
  · rfl
  cases hkind : o.kind <;> cases hp : o.priv <;> rw [hkind] at hk <;> try rfl
  · exact DynState.property_write_apart _ hk h
  · exact FltState.property_write_apart _ hk h
  · exact PeqState.property_write_apart _ hk h
  · exact PanState.property_write_apart _ hk h
  · exact SigState.property_write_apart _ hk h

end Cells

/-! ### Parameters on the wire -/

/-- What comes back of the parameters of the setter: those that it reads. The repeat flag of a sweep
comes back as 1 or 0. -/
def Sel.echo (sel : Sel) (ps : Bytes) : Bytes :=
  match sel with
  | .dynFunction | .dynThresholdUnits | .dynDetectorLaw | .fltPassband | .fltShape | .peqShape
  | .sigWaveform | .sigSweepType => ps.take 1
  | .sigSweepRepeat => [flag (ps.headD 0 != 0)]
  | .fltOrder => ps.take 2
  | .dynThreshold => ps.take 8 -- with its reference
  | _ => ps.take 4

section Echo

variable {sel : Sel} {idx : UInt16} {p : Ptr} {ps : Bytes} {o : Obj} {w : ParamWrite}

/-- One byte is its own number. -/
theorem decode_byte {bs : Bytes} (h : bs.length = 1) :
    [UInt8.ofNat (BigEndian.decode bs)] = bs := by
  obtain ⟨b, rfl⟩ := List.length_eq_one_iff.1 h
  simp [BigEndian.decode]

theorem byteWrite_echo (hps : p.read ps.length = ps)
    (h : byteWrite sel (.init p ps.length) = some w) :
    w.sel = sel ∧ Field.encodeAll [.u8 (toU8 w.value)] = ps.take 1 := by
  obtain ⟨hlen, -, rfl⟩ := acceptedWrite_params takes_u8 hps h
  refine ⟨rfl, ?_⟩
  rw [toU8_ofNat]
  exact (List.append_nil _).trans (decode_byte hlen)

/-- A byte is stored as a truth value. -/
theorem isNonzero_ofNat (b : UInt8) : isNonzero (.ofNat b.toNat) = (b != 0) := by
  have hlt := b.toNat_lt
  by_cases hb : b = 0
  · subst hb
    decide
  have hne : (.ofNat b.toNat : F64).eqv .zero = false := by
    refine Bool.eq_false_iff.2 fun heqv => hb (UInt8.toNat_inj.1 ?_)
    have htrunc := Ieee.Binary.trunc_of_eqv heqv
    rw [Ieee.Binary.ofNat_eq_ofInt,
      Ieee.Binary.trunc_ofInt (by decide) (by decide) (by omega)] at htrunc
    have hzero : (.zero : F64).trunc = 0 := by decide +kernel
    exact_mod_cast htrunc.trans hzero
  simp [isNonzero, hne, hb]

theorem flagWrite_echo (hps : p.read ps.length = ps)
    (h : byteWrite sel (.init p ps.length) = some w) :
    w.sel = sel ∧ Field.encodeAll [.u8 (flag (isNonzero w.value))] = [flag (ps.headD 0 != 0)] := by
  obtain ⟨hlen, -, rfl⟩ := acceptedWrite_params takes_u8 hps h
  refine ⟨rfl, ?_⟩
  rw [isNonzero_ofNat]
  cases ps with
  | nil => cases hlen
  | cons b bs => simp [Field.encodeAll, Field.encode, Field.pieces, BigEndian.decode]

theorem floatWrite_echo {bad : F32 → Bool} (hps : p.read ps.length = ps)
    (h : acceptedWrite Read.f32 bad (fun v => ⟨sel, toF64 v, .zero⟩) (.init p ps.length) = some w)
    (hnum : w.value.isNaN = false) :
    w.sel = sel ∧ Field.encodeAll [.f32 (toF32 w.value)] = ps.take 4 := by
  obtain ⟨hlen, -, rfl⟩ := acceptedWrite_params takes_f32 hps h
  refine ⟨rfl, ?_⟩
  rw [isNaN_toF64] at hnum
  rw [toF32_toF64 hnum]
  exact (List.append_nil _).trans (wr32_rd32 hlen)

theorem orderWrite_echo {lo hi : UInt16} (hps : p.read ps.length = ps)
    (h : orderWrite lo hi (.init p ps.length) = some w) :
    w.sel = .fltOrder ∧ Field.encodeAll [.u16 (toU16 w.value)] = ps.take 2 := by
  obtain ⟨hlen, -, rfl⟩ := acceptedWrite_params takes_u16 hps h
  refine ⟨rfl, ?_⟩
  rw [toU16_ofNat]
  exact (List.append_nil _).trans (wr16_rd16 hlen)

theorem thresholdWrite_echo {lo hi : F32} (hps : p.read ps.length = ps)
    (h : thresholdWrite lo hi (.init p ps.length) = some w) (hnum : w.value.isNaN = false)
    (href : w.ref.isNaN = false) : w.sel = .dynThreshold ∧
      Field.encodeAll [.f32 (toF32 w.value), .f32 (toF32 w.ref)] = ps.take 8 := by
  obtain ⟨hlen, -, rfl⟩ := acceptedWrite_params (takes_f32.pair takes_f32) hps h
  refine ⟨rfl, ?_⟩
  rw [isNaN_toF64] at hnum href
  rw [toF32_toF64 hnum, toF32_toF64 href]
  have hfirst : ((ps.take 8).take 4).length = 4 := by
    rw [List.length_take, hlen]
    rfl
  have hsecond : ((ps.take 8).drop 4).length = 4 := by
    rw [List.length_drop, hlen]
  calc Field.encodeAll _
      = wr32 (rd32 ((ps.take 8).take 4)) ++ wr32 (rd32 ((ps.take 8).drop 4)) := by
        simp [Field.encodeAll, Field.encode, Field.pieces]
    _ = (ps.take 8).take 4 ++ (ps.take 8).drop 4 := by rw [wr32_rd32 hfirst, wr32_rd32 hsecond]
    _ = ps.take 8 := List.take_append_drop 4 _

theorem DynState.setting_echo {s : DynState} (hps : p.read ps.length = ps)
    (h : s.setting idx (.init p ps.length) = some w) (hnum : w.value.isNaN = false)
    (href : w.ref.isNaN = false) :
    ((s.write w.sel w.value w.ref).property (selToProp w.sel).2).map Field.encodeAll =
      some (w.sel.echo ps) := by
  unfold setting at h
  split at h
  all_goals first
    | cases h
    | obtain ⟨hsel, hecho⟩ := byteWrite_echo hps h
      rw [hsel]
      exact congrArg some hecho
    | obtain ⟨hsel, hecho⟩ := floatWrite_echo hps h hnum
      rw [hsel]
      exact congrArg some hecho
    | obtain ⟨hsel, hecho⟩ := thresholdWrite_echo hps h hnum href
      rw [hsel]
      exact congrArg some hecho

theorem FltState.setting_echo {s : FltState} (hps : p.read ps.length = ps)
    (h : s.setting idx (.init p ps.length) = some w) (hnum : w.value.isNaN = false) :
    ((s.write w.sel w.value).property (selToProp w.sel).2).map Field.encodeAll =
      some (w.sel.echo ps) := by
  unfold setting at h
  split at h
  all_goals first
    | cases h
    | obtain ⟨hsel, hecho⟩ := byteWrite_echo hps h
      rw [hsel]
      exact congrArg some hecho
    | obtain ⟨hsel, hecho⟩ := floatWrite_echo hps h hnum
      rw [hsel]
      exact congrArg some hecho
    | obtain ⟨hsel, hecho⟩ := orderWrite_echo hps h
      rw [hsel]
      exact congrArg some hecho

theorem PeqState.setting_echo {s : PeqState} (hps : p.read ps.length = ps)
    (h : s.setting idx (.init p ps.length) = some w) (hnum : w.value.isNaN = false) :
    ((s.write w.sel w.value).property (selToProp w.sel).2).map Field.encodeAll =
      some (w.sel.echo ps) := by
  unfold setting at h
  split at h
  all_goals first
    | cases h
    | obtain ⟨hsel, hecho⟩ := byteWrite_echo hps h
      rw [hsel]
      exact congrArg some hecho
    | obtain ⟨hsel, hecho⟩ := floatWrite_echo hps h hnum
      rw [hsel]
      exact congrArg some hecho

theorem PanState.setting_echo {s : PanState} (hps : p.read ps.length = ps)
    (h : s.setting idx (.init p ps.length) = some w) (hnum : w.value.isNaN = false) :
    ((s.write w.sel w.value).property (selToProp w.sel).2).map Field.encodeAll =
      some (w.sel.echo ps) := by
  unfold setting at h
  split at h
  all_goals first
    | cases h
    | obtain ⟨hsel, hecho⟩ := floatWrite_echo hps h hnum
      rw [hsel]
      exact congrArg some hecho

theorem SigState.setting_echo {s : SigState} (hps : p.read ps.length = ps)
    (h : s.setting idx (.init p ps.length) = some w) (hsel : w.sel ≠ .sigGenerating)
    (hnum : w.value.isNaN = false) :
    ((s.write w.sel w.value).property (selToProp w.sel).2).map Field.encodeAll =
      some (w.sel.echo ps) := by
  unfold setting at h
  split at h
  case h_7 =>
    obtain ⟨hsel, hecho⟩ := flagWrite_echo hps h
    rw [hsel]
    exact congrArg some hecho
  case h_8 | h_9 => exact absurd (Option.some.inj h ▸ rfl) hsel
  all_goals first
    | cases h
    | obtain ⟨hsel, hecho⟩ := byteWrite_echo hps h
      rw [hsel]
      exact congrArg some hecho
    | obtain ⟨hsel, hecho⟩ := floatWrite_echo hps h hnum
      rw [hsel]
      exact congrArg some hecho

/-- **The getter of a parameter** writes what its setter read. -/
theorem encode_param (hps : p.read ps.length = ps)
    (h : dspSetting o idx (.init p ps.length) = some w) (hsel : w.sel ≠ .sigGenerating)
    (hnum : w.value.isNaN = false) (href : w.ref.isNaN = false) :
    (dspEncodeProperty { o with priv := o.priv.write w } (selToProp w.sel).1
      (selToProp w.sel).2).map Field.encodeAll = some (w.sel.echo ps) := by
  have hlevel : (selToProp w.sel).1 = 4 := by cases w.sel <;> rfl
  unfold dspSetting at h
  unfold dspEncodeProperty
  rw [hlevel, if_neg (not_not.2 rfl)]
  split at h
  case h_1 hk hp =>
    simp only [hk, hp]
    exact DynState.setting_echo hps h hnum href
  case h_2 hk hp =>
    simp only [hk, hp]
    exact FltState.setting_echo hps h hnum
  case h_3 hk hp =>
    simp only [hk, hp]
    exact PeqState.setting_echo hps h hnum
  case h_4 hk hp =>
    simp only [hk, hp]
    exact PanState.setting_echo hps h hnum
  case h_5 hk hp =>
    simp only [hk, hp]
    exact SigState.setting_echo hps h hsel hnum
  case h_6 => cases h

end Echo

/-! ### A set and a get -/

namespace Action

/-- The step writes no parameter of object `i` that is stored in this field. -/
def LeavesCell (i : ObjRef) (sel : Sel) (d : Device K) (a : Action K) : Prop :=
  ∀ w, (a.effects d).param = some (i, w) → w.sel.cell ≠ sel.cell

end Action

section Access

variable {d d' : Device K} {i : ObjRef} {sel : Sel} {conn conn' : ℕ} {cmd get : Command}
  {rd rd' : Reader} {w : ParamWrite}

theorem dspState_congr {o o' : Obj} (hk : o'.kind = o.kind) (hp : o'.priv = o.priv) :
    o'.dspState = o.dspState := by
  unfold Obj.dspState
  rw [hk, hp]

theorem dsp_of_state {o : Obj} (h : o.dspState = true) : dspIsDspKind o.kind = true := by
  unfold Obj.dspState at h
  split at h
  case h_6 => cases h
  all_goals simp_all [dspIsDspKind]

/-- What a parameter is sent as depends on the kind and the private state. -/
theorem dspEncodeProperty_congr {o o' : Obj} (hk : o'.kind = o.kind) (hp : o'.priv = o.priv)
    (level index : UInt16) :
    dspEncodeProperty o' level index = dspEncodeProperty o level index := by
  unfold dspEncodeProperty
  rw [hk, hp]

/-- What a DSP object sends as a parameter of its class. -/
theorem encodeProperty_parameter (hk : sel.kind = some (d.obj i).kind) {fs : List Field}
    (h : dspEncodeProperty (d.obj i) (selToProp sel).1 (selToProp sel).2 = some fs) :
    d.encodeProperty i (selToProp sel).1 (selToProp sel).2 = some fs := by
  have hlevel : (selToProp sel).1 = 4 := by cases sel <;> rfl
  rw [hlevel] at h ⊢
  simp [Device.encodeProperty, Device.encodeClassProperty, h]

/-- **A set** that is answered with OK leaves the parameter it carries in the object. -/
theorem priv_of_set (hf : d.find cmd.target = some i) (hlevel : cmd.level = 4)
    (hset : dspSetting (d.obj i) cmd.index rd = some w)
    (hok : (answer K.txBufferSize conn cmd rd d).response.status = .ok) :
    (((Operation.command conn cmd rd).run d).obj i).priv = (d.obj i).priv.write w := by
  let c : Call K := ⟨{ d with activeConn := some conn }, rd, .init K.txBufferSize, 0⟩
  have hexec : (execCommand conn cmd c).1 = .ok := hok
  have hfind : c.dev.find cmd.target = some i := hf
  rw [execCommand_of_find hfind] at hexec
  have hgate := gate_of_ok hexec
  have hdsp := dsp_of_state (dspSetting_sel hset).2
  obtain ⟨h, hh⟩ := handlerFor_dsp (K := K) hdsp
  have hwrites : WritesAt (h i cmd.index) c i (some w) := by
    rw [← hset]
    exact dspDispatch_writesAt hh hdsp rfl
  have hobj : (execCommand conn cmd c).2.dev.obj i = (c.dev.param i true (some w)).obj i := by
    rw [execCommand_of_find hfind]
    dsimp only
    rw [hlevel] at hgate ⊢
    rw [objectDispatch_of_handler (d := c.dev) hh hgate rfl]
    exact congrArg (·.obj i) hwrites
  have hrun : ((Operation.command conn cmd rd).run d).obj i =
      (execCommand conn cmd c).2.dev.obj i := rfl
  rw [hrun, hobj, Device.obj_param (find_lt hfind)]
  rfl

/-- A step that leaves the field leaves what is sent of a parameter in it. -/
theorem leaves_step {a : Action K} (hi : i < d.objects.length) (ha : a.Legal d)
    (hk : sel.kind = some (d.obj i).kind) (hs : (d.obj i).dspState = true)
    (h : a.LeavesCell i sel d) :
    ((a.run d).obj i).dspState = true ∧
      dspEncodeProperty ((a.run d).obj i) (selToProp sel).1 (selToProp sel).2 =
        dspEncodeProperty (d.obj i) (selToProp sel).1 (selToProp sel).2 := by
  have hdsp : dspIsDspKind (d.obj i).kind = true := dsp_of_state hs
  have hchanges := action_changes ha
  obtain ⟨-, -, hkind⟩ := hchanges.old hi
  have hsame (hpriv : ((a.run d).obj i).priv = (d.obj i).priv) :
      ((a.run d).obj i).dspState = true ∧
        dspEncodeProperty ((a.run d).obj i) (selToProp sel).1 (selToProp sel).2 =
          dspEncodeProperty (d.obj i) (selToProp sel).1 (selToProp sel).2 :=
    ⟨(dspState_congr hkind hpriv).trans hs, dspEncodeProperty_congr hkind hpriv _ _⟩
  obtain hpriv | hpriv := hchanges.oldPriv hi hdsp
  · unfold Effects.priv at hpriv
    split at hpriv
    next j w hparam =>
      split_ifs at hpriv with hij
      · subst hij
        have hwritten : ((a.run d).obj j).kind =
            { d.obj j with priv := (d.obj j).priv.write w }.kind := hkind
        exact ⟨(dspState_congr hwritten hpriv).trans ((dspState_write _ w).trans hs),
          (dspEncodeProperty_congr hwritten hpriv _ _).trans
            (dspEncodeProperty_write_apart hk (h w hparam))⟩
      · exact hsame hpriv
    next => exact hsame hpriv
  · exact hsame hpriv

/-- **A get of a parameter after a set**, with any steps in between that do not write the field, is
answered with the bytes that were set. -/
theorem get_of_param (h : (control K).Reach d) (hf : d.find cmd.target = some i)
    (hlevel : cmd.level = 4) (hset : dspSetting (d.obj i) cmd.index rd = some w)
    (hsel : w.sel ≠ .sigGenerating) (hcarries : Carries cmd (cmd, rd))
    (hnum : w.value.isNaN = false) (href : w.ref.isNaN = false)
    (hok : (answer K.txBufferSize conn cmd rd d).response.status = .ok) {as : List (Action K)}
    (hrun : ((control K).restrict fun d a => a.LeavesCell i w.sel d).Run
      ((Operation.command conn cmd rd).run d) as d')
    (htarget : get.target = cmd.target) (hget : (get.level, get.index) = (4, w.sel.getter)) :
    (answer K.txBufferSize conn' get rd' d').response.status = .ok ∧
      w.sel.echo cmd.params <+: (answer K.txBufferSize conn' get rd' d').response.params := by
  have hi := find_lt hf
  obtain ⟨hclass, hstate⟩ := dspSetting_sel hset
  let a : Action K := .operation (.command conn cmd rd)
  have hlegal : a.Legal d := trivial
  have hadmitted : (control K).ok d a := hlegal
  have hreach : (control K).Reach (a.run d) := h.step hadmitted
  obtain ⟨hlt, hono, hkind⟩ := (action_changes hlegal).old hi
  have hpriv : ((a.run d).obj i).priv = (d.obj i).priv.write w := priv_of_set hf hlevel hset hok
  obtain ⟨-, p, rfl, hps⟩ := hcarries
  obtain ⟨fs, hfs, hecho⟩ := Option.map_eq_some_iff.1 (encode_param hps hset hsel hnum href)
  have hwritten : ((a.run d).obj i).kind = { d.obj i with priv := (d.obj i).priv.write w }.kind :=
    hkind
  -- the object keeps what is sent of the parameter
  have hkept : i < d'.objects.length ∧ (d'.obj i).ono = (d.obj i).ono ∧
      (d'.obj i).kind = (d.obj i).kind ∧ (d'.obj i).dspState = true ∧
        dspEncodeProperty (d'.obj i) (selToProp w.sel).1 (selToProp w.sel).2 = some fs := by
    refine hrun.invariant (I := fun e => i < e.objects.length ∧ (e.obj i).ono = (d.obj i).ono ∧
      (e.obj i).kind = (d.obj i).kind ∧ (e.obj i).dspState = true ∧
        dspEncodeProperty (e.obj i) (selToProp w.sel).1 (selToProp w.sel).2 = some fs)
      ⟨hlt, hono, hkind, ?_, ?_⟩ ?_
    · exact (dspState_congr hwritten hpriv).trans ((dspState_write _ w).trans hstate)
    · exact (dspEncodeProperty_congr hwritten hpriv _ _).trans hfs
    · intro e b ⟨hi, hono, hkind, hs, hfs⟩ hok
      obtain ⟨hi', hono', hkind'⟩ := (action_changes hok.1).old hi
      obtain ⟨hs', hfs'⟩ := leaves_step hi hok.1 (hkind.symm ▸ hclass) hs hok.2
      exact ⟨hi', hono'.trans hono, hkind'.trans hkind, hs', hfs'.trans hfs⟩
  obtain ⟨hi', hono', hkind', hs', hfs'⟩ := hkept
  have hreach' := hreach.run hrun.of_restrict
  have hfind : d'.find get.target = some i := by
    have hfind := (reach_tree hreach').registry.find_ono hi'
    rwa [hono', obj_of_find hf, ← htarget] at hfind
  have hclass' : w.sel.kind = some (d'.obj i).kind := hkind'.symm ▸ hclass
  obtain ⟨bs, hbs, -, hanswer⟩ := answer_announced (.parameter hclass' hs')
  rw [Device.wireProperty, encodeProperty_parameter hclass' hfs', Option.map_some, hecho] at hbs
  obtain rfl := Option.some.inj hbs
  obtain ⟨hstatus, -, hparams, hfits⟩ := hanswer K.txBufferSize conn' get rd' hfind hget
  have hsize : (w.sel.echo cmd.params).length ≤ 8 := by
    unfold Sel.echo
    split <;> simp
  have hroom := K.txBufferSize_range.1
  rw [hparams (hfits (by omega))]
  exact ⟨hstatus, List.prefix_append _ _⟩

end Access

namespace Sample

/-- `SetThreshold` of -12 dB, with the reference 0. -/
def lowerThreshold : Command := ⟨5, 4096, 4, 8, 2, [0xC1, 0x40, 0, 0, 0, 0, 0, 0]⟩

/-- `GetThreshold`. -/
def readThreshold : Command := ⟨6, 4096, 4, 7, 0, []⟩

/-- The compressor with this threshold. -/
def compressing : Device .default :=
  (Operation.command 0 lowerThreshold (Reader.ofBytes lowerThreshold.params)).run compressor

/-- Another controller sets the release time. -/
theorem get_lowerThreshold :
    let a := answer 2048 1 readThreshold (Reader.ofBytes [])
      ((sent 4096 4 16 1 [0x3F, 0x80, 0, 0]).run compressing)
    a.response.status = .ok ∧ [0xC1, 0x40, 0, 0, 0, 0, 0, 0] <+: a.response.params := by
  have hcarries : Carries lowerThreshold (lowerThreshold, Reader.ofBytes lowerThreshold.params) :=
    ⟨rfl, _, rfl, Ptr.read_ofBytes _ _⟩
  have hleaves : (sent 4096 4 16 1 [0x3F, 0x80, 0, 0]).LeavesCell 3 .dynThreshold compressing := by
    intro w hw
    have hsel : ((sent 4096 4 16 1 [0x3F, 0x80, 0, 0]).effects compressing).param.map
        (fun x => x.2.sel) = some .dynRelease := by decide +kernel
    rw [hw] at hsel
    have hrelease : w.sel = .dynRelease := Option.some.inj hsel
    rw [hrelease]
    decide
  have hlegal : (control .default).ok compressing (sent 4096 4 16 1 [0x3F, 0x80, 0, 0]) := trivial
  have hrun := Machine.Run.cons
    (M := (control .default).restrict fun d a => a.LeavesCell 3 .dynThreshold d)
    ⟨hlegal, hleaves⟩ (.nil _)
  have hset : dspSetting (compressor.obj 3) 8 (Reader.ofBytes lowerThreshold.params) =
      some ⟨.dynThreshold, .ofInt (-12), .zero⟩ := by decide +kernel
  have htarget : readThreshold.target = lowerThreshold.target := rfl
  exact get_of_param (reach_control reach_compressor) (by decide) rfl hset (by decide) hcarries
    (by decide) (by decide) (by decide +kernel) hrun htarget rfl

end Sample

end Aes70
