import Aes70.Device.Callback
import Aes70.Router.Bounds
import Aes70.Server.Machine

/-!
# Range checks

The setters of float values that check a range do it by `v < min || v > max`. A NaN is neither below
nor above a bound, so the check lets it through.

* `Checked` : a number that is compared with two bounds.
* `Obj.rangeSetter` : the setters with such a check, and how they read their parameters.
* `objectDispatch_checks` : how a call of one ends.
* `RejectsNonNumbers` : no value outside the bounds is accepted, no NaN is stored or forwarded.
* `rejectsNonNumbers_iff` : a call does so exactly if what it reads, and stores, are numbers.
-/

namespace Aes70

open Device Handler

variable {K : Kconfig}

/-! ### The setters with a check -/

/-- A number, the bounds it is compared with, the value that is committed for it, and the reference
that SetThreshold stores with it. -/
structure Checked where
  {e m : ℕ}
  value : Ieee.Binary e m
  lo : Ieee.Binary e m
  hi : Ieee.Binary e m
  num : F64
  ref : Option F32

namespace Checked

/-- The value lies between the bounds. -/
def Within (a : Checked) : Prop := a.lo.le a.value = true ∧ a.value.le a.hi = true

/-- The bounds are numbers. -/
def Bounded (a : Checked) : Prop := a.lo.isNaN = false ∧ a.hi.isNaN = false

/-- The condition of the check. -/
def outside (a : Checked) : Bool := a.value.lt a.lo || a.hi.lt a.value

instance (a : Checked) : Decidable a.Within := inferInstanceAs (Decidable (_ ∧ _))

instance (a : Checked) : Decidable a.Bounded := inferInstanceAs (Decidable (_ ∧ _))

end Checked

/-- A setter with a range check: the parameter it writes, `scalar` for the value of a scalar class,
and how it reads the number to check. -/
structure RangeSetter where
  sel : Sel
  read : Read Checked

/-- A `float` compared with `double` bounds. -/
def checkWide (lo hi : F64) : Read Checked :=
  (fun v => ⟨toF64 v, lo, hi, toF64 v, none⟩) <$> Read.f32

/-- A `double`. -/
def checkDouble (lo hi : F64) : Read Checked := (fun v => ⟨v, lo, hi, v, none⟩) <$> Read.f64

/-- A `float` compared with `float` bounds. -/
def checkFloat (lo hi : F32) : Read Checked :=
  (fun v => ⟨v, lo, hi, toF64 v, none⟩) <$> Read.f32

/-- The `OcaDBr` of SetThreshold: the bounds are those of its value. -/
def checkThreshold (lo hi : F32) : Read Checked :=
  (fun a => ⟨a.1, lo, hi, toF64 a.1, some a.2⟩) <$> (do return (← Read.f32, ← Read.f32))

/-- OcaDynamics. -/
def DynState.rangeSetter (s : DynState) (idx : UInt16) : Option RangeSetter :=
  match idx with
  | 6 => some ⟨.dynRatio, checkFloat s.ratioMin s.ratioMax⟩
  | 8 => some ⟨.dynThreshold, checkThreshold s.thresholdMin s.thresholdMax⟩
  | 14 => some ⟨.dynAttack, checkFloat s.attackMin s.attackMax⟩
  | 16 => some ⟨.dynRelease, checkFloat s.releaseMin s.releaseMax⟩
  | 24 => some ⟨.dynKnee, checkFloat s.kneeMin s.kneeMax⟩
  | _ => none

/-- OcaFilterClassical. -/
def FltState.rangeSetter (s : FltState) (idx : UInt16) : Option RangeSetter :=
  match idx with
  | 2 => some ⟨.fltFrequency, checkFloat s.frequencyMin s.frequencyMax⟩
  | _ => none

/-- OcaFilterParametric. -/
def PeqState.rangeSetter (s : PeqState) (idx : UInt16) : Option RangeSetter :=
  match idx with
  | 2 => some ⟨.peqFrequency, checkFloat s.frequencyMin s.frequencyMax⟩
  | 8 => some ⟨.peqInbandGain, checkFloat s.inbandMin s.inbandMax⟩
  | _ => none

/-- OcaPanBalance. -/
def PanState.rangeSetter (s : PanState) (idx : UInt16) : Option RangeSetter :=
  match idx with
  | 2 => some ⟨.panPosition, checkFloat s.positionMin s.positionMax⟩
  | _ => none

/-- OcaSignalGenerator. -/
def SigState.rangeSetter (s : SigState) (idx : UInt16) : Option RangeSetter :=
  match idx with
  | 2 => some ⟨.sigFreq1, checkFloat s.freq1Min s.freq1Max⟩
  | 4 => some ⟨.sigFreq2, checkFloat s.freq2Min s.freq2Max⟩
  | 6 => some ⟨.sigLevel, checkFloat s.levelMin s.levelMax⟩
  | _ => none

/-- The method is a setter of a float value that checks a range. -/
def Obj.rangeSetter (o : Obj) (level index : UInt16) : Option RangeSetter :=
  match o.kind, o.priv with
  | .gain, _ | .frequency, _ =>
    if level = 4 ∧ index = 2 then some ⟨.scalar, checkWide o.numMin o.numMax⟩ else none
  | .delay, _ =>
    if level = 4 ∧ index = 2 then some ⟨.scalar, checkDouble o.numMin o.numMax⟩ else none
  | .float32, _ =>
    if level = 5 ∧ index = 2 then some ⟨.scalar, checkWide o.numMin o.numMax⟩ else none
  | .dynamics, .dynamics s => if level = 4 then s.rangeSetter index else none
  | .filterClassical, .filter s => if level = 4 then s.rangeSetter index else none
  | .filterParametric, .peq s => if level = 4 then s.rangeSetter index else none
  | .panBalance, .pan s => if level = 4 then s.rangeSetter index else none
  | .signalGen, .siggen s => if level = 4 then s.rangeSetter index else none
  | _, _ => none

/-! ### What they store -/

/-- The parameters that a checked write through the selector stores. -/
def Priv.floats (p : Priv) (sel : Sel) : List F32 :=
  match p, sel with
  | .dynamics s, .dynRatio => [s.ratio]
  | .dynamics s, .dynThreshold => [s.threshold, s.thresholdRef]
  | .dynamics s, .dynAttack => [s.attack]
  | .dynamics s, .dynRelease => [s.release]
  | .dynamics s, .dynKnee => [s.knee]
  | .filter s, .fltFrequency => [s.frequency]
  | .peq s, .peqFrequency => [s.frequency]
  | .peq s, .peqInbandGain => [s.inbandGain]
  | .pan s, .panPosition => [s.position]
  | .siggen s, .sigFreq1 => [s.freq1]
  | .siggen s, .sigFreq2 => [s.freq2]
  | .siggen s, .sigLevel => [s.level]
  | _, _ => []

/-- None of the values that such a setter stores is a NaN. -/
def Obj.Numbers (o : Obj) (sel : Sel) : Prop :=
  if sel = .scalar then o.num.isNaN = false else ∀ x ∈ o.priv.floats sel, x.isNaN = false

instance (o : Obj) (sel : Sel) : Decidable (o.Numbers sel) := by
  unfold Obj.Numbers
  infer_instance

/-- The write of a parameter for an accepted number. -/
def RangeSetter.write (q : RangeSetter) (a : Checked) : ParamWrite :=
  ⟨q.sel, a.num, (a.ref.map toF64).getD .zero⟩

/-- What the setter does with an accepted number. -/
def Device.accept (d : Device K) (i : ObjRef) (level : UInt16) (q : RangeSetter) (a : Checked) :
    Device K :=
  if q.sel = .scalar then d.commitNum i a.num level 1 true else d.param i true (some (q.write a))

/-! ### How a call ends -/

/-- The call `c` of `h` refuses what it reads by `r` if it is outside, else it does `f`. -/
def Handler.Checks (h : Handler K) (c : Call K) (r : Read Checked)
    (f : Checked → Device K) : Prop :=
  (r c.rd).2.err = false → ((h c).1, (h c).2.dev) =
    if (r c.rd).1.outside then (.parameterOutOfRange, c.dev) else (.ok, f (r c.rd).1)

section Calls

variable {i : ObjRef} {idx : UInt16} {c : Call K} {q : RangeSetter}

/-- Read, compare, store. -/
theorem checks_reading {α : Type} {r : Read α} {g : α → Checked} {k : α → Handler K}
    {f : Checked → Device K} (store : α → Device K → Device K)
    (hk : ∀ a, k a = ranged (g a).value (g a).lo (g a).hi (.store (store a)))
    (hf : ∀ a, store a c.dev = f (g a)) : Checks (reading r k) c (g <$> r) f := by
  intro herr
  have hcall : reading r k c = k (r c.rd).1 { c with rd := (r c.rd).2 } := reading_of_ok rfl herr
  change ((reading r k c).1, (reading r k c).2.dev) =
    if (g (r c.rd).1).outside then (.parameterOutOfRange, c.dev) else (.ok, f (g (r c.rd).1))
  rw [hcall, hk]
  unfold ranged Checked.outside
  split_ifs
  · rfl
  · rw [← hf]
    rfl

theorem checks_look {h : Device K → Handler K} {r : Read Checked} {f : Checked → Device K}
    (hc : Checks (h c.dev) c r f) : Checks (look h) c r f := hc

/-- The setter of a scalar class with a check. -/
theorem scalar_checks {level : UInt16} {α : Type} {r : Read α} {g : α → Checked}
    {k : α → Handler K} (hk : ∀ a, k a = ranged (g a).value (g a).lo (g a).hi
      (store fun d => d.commitNum i (g a).num level 1 true)) :
    Checks (reading r k) c (g <$> r) fun a => c.dev.accept i level ⟨.scalar, g <$> r⟩ a :=
  checks_reading (fun a d => d.commitNum i (g a).num level 1 true) hk fun _ => rfl

section Float

variable {write : Device K → F64 → Device K} {sel : Sel} (hsel : sel ≠ .scalar)
  (hw : ∀ v, write c.dev v = c.dev.param i true (some ⟨sel, v, .zero⟩))
include hsel hw

theorem setFloatIn_checks (lo hi : F32) : Checks (setFloatIn lo hi write) c (checkFloat lo hi)
    fun a => c.dev.accept i 4 ⟨sel, checkFloat lo hi⟩ a := by
  refine checks_reading (fun v d => write d (toF64 v)) (fun _ => rfl) fun v => ?_
  rw [accept, if_neg hsel]
  exact hw _

end Float

theorem dynamicsDispatch_checks {s : DynState} (hp : (c.dev.obj i).priv = .dynamics s)
    (hq : s.rangeSetter idx = some q) :
    Checks (dynamicsDispatch i idx) c q.read fun a => c.dev.accept i 4 q a := by
  have hw (sel : Sel) (v v2 : F64) := dynWrite_eq hp sel v v2 true
  refine checks_look ?_
  simp only [hp]
  unfold DynState.rangeSetter at hq
  split at hq
  -- SetThreshold reads two numbers and checks the first
  case h_2 =>
    obtain rfl := Option.some.inj hq
    refine checks_reading (fun a d => d.dynWrite i .dynThreshold (toF64 a.1) (toF64 a.2) true)
      (fun _ => rfl) fun a => ?_
    exact hw _ _ _
  case h_6 => cases hq
  all_goals
    obtain rfl := Option.some.inj hq
    exact setFloatIn_checks (by decide) (fun v => hw _ v _) _ _

theorem filterDispatch_checks {s : FltState} (hp : (c.dev.obj i).priv = .filter s)
    (hq : s.rangeSetter idx = some q) :
    Checks (filterDispatch i idx) c q.read fun a => c.dev.accept i 4 q a := by
  have hw (sel : Sel) (v : F64) := fltWrite_eq hp sel v .zero true
  refine checks_look ?_
  simp only [hp]
  unfold FltState.rangeSetter at hq
  split at hq
  case h_2 => cases hq
  all_goals
    obtain rfl := Option.some.inj hq
    exact setFloatIn_checks (by decide) (fun v => hw _ v) _ _

theorem peqDispatch_checks {s : PeqState} (hp : (c.dev.obj i).priv = .peq s)
    (hq : s.rangeSetter idx = some q) :
    Checks (peqDispatch i idx) c q.read fun a => c.dev.accept i 4 q a := by
  have hw (sel : Sel) (v : F64) := peqWrite_eq hp sel v .zero true
  refine checks_look ?_
  simp only [hp]
  unfold PeqState.rangeSetter at hq
  split at hq
  case h_3 => cases hq
  all_goals
    obtain rfl := Option.some.inj hq
    exact setFloatIn_checks (by decide) (fun v => hw _ v) _ _

theorem panDispatch_checks {s : PanState} (hp : (c.dev.obj i).priv = .pan s)
    (hq : s.rangeSetter idx = some q) :
    Checks (panDispatch i idx) c q.read fun a => c.dev.accept i 4 q a := by
  have hw (sel : Sel) (v : F64) := panWrite_eq hp sel v .zero true
  refine checks_look ?_
  simp only [hp]
  unfold PanState.rangeSetter at hq
  split at hq
  case h_2 => cases hq
  all_goals
    obtain rfl := Option.some.inj hq
    exact setFloatIn_checks (by decide) (fun v => hw _ v) _ _

theorem siggenDispatch_checks {s : SigState} (hp : (c.dev.obj i).priv = .siggen s)
    (hq : s.rangeSetter idx = some q) :
    Checks (siggenDispatch i idx) c q.read fun a => c.dev.accept i 4 q a := by
  have hw (sel : Sel) (v : F64) := sigWrite_eq hp sel v .zero true
  refine checks_look ?_
  simp only [hp]
  unfold SigState.rangeSetter at hq
  split at hq
  case h_4 => cases hq
  all_goals
    obtain rfl := Option.some.inj hq
    exact setFloatIn_checks (by decide) (fun v => hw _ v) _ _

/-- **A call of a setter with a range check**, let through by the gate. -/
theorem objectDispatch_checks {level : UInt16} (hq : (c.dev.obj i).rangeSetter level idx = some q)
    (hg : c.dev.gate i level idx = none) :
    Checks (objectDispatch i level idx) c q.read fun a => c.dev.accept i level q a := by
  have hcall {h : ObjRef → UInt16 → Handler K}
      (hh : handlerFor (c.dev.obj i).kind level = some h)
      (hc : Checks (h i idx) c q.read fun a => c.dev.accept i level q a) :
      Checks (objectDispatch i level idx) c q.read fun a => c.dev.accept i level q a := by
    unfold Checks
    rw [objectDispatch_of_handler hh hg rfl]
    exact hc
  have hkind {k : Kind} (hk : (c.dev.obj i).kind = k) {h : ObjRef → UInt16 → Handler K}
      (hh : handlerFor k level = some h) : handlerFor (c.dev.obj i).kind level = some h := hk ▸ hh
  unfold Obj.rangeSetter at hq
  split at hq
  case h_10 => cases hq
  -- the scalar classes: gain and frequency, delay, Float32
  case h_1 hk | h_2 hk =>
    obtain ⟨⟨rfl, rfl⟩, hq⟩ := Option.ite_none_right_eq_some.1 hq
    obtain rfl := Option.some.inj hq
    refine hcall (h := gainDispatch) (hkind hk rfl) (checks_look ?_)
    exact scalar_checks fun _ => rfl
  case h_3 hk =>
    obtain ⟨⟨rfl, rfl⟩, hq⟩ := Option.ite_none_right_eq_some.1 hq
    obtain rfl := Option.some.inj hq
    refine hcall (h := delayDispatch) (hkind hk rfl) (checks_look ?_)
    exact scalar_checks fun _ => rfl
  case h_4 hk =>
    obtain ⟨⟨rfl, rfl⟩, hq⟩ := Option.ite_none_right_eq_some.1 hq
    obtain rfl := Option.some.inj hq
    refine hcall (h := basicActuatorDispatch) (hkind hk rfl) (checks_look ?_)
    have hset : setSetting (K := K) i (c.dev.obj i) =
        setNumber i (c.dev.obj i) (toF64 <$> Read.f32) := by simp only [setSetting, hk]
    change Checks (setSetting i (c.dev.obj i)) c _ _
    rw [hset]
    exact scalar_checks (r := toF64 <$> Read.f32)
      (g := fun v => ⟨v, (c.dev.obj i).numMin, (c.dev.obj i).numMax, v, none⟩) fun _ => rfl
  -- the DSP classes
  case h_5 hk hp =>
    obtain ⟨rfl, hq⟩ := Option.ite_none_right_eq_some.1 hq
    exact hcall (hkind hk rfl) (dynamicsDispatch_checks hp hq)
  case h_6 hk hp =>
    obtain ⟨rfl, hq⟩ := Option.ite_none_right_eq_some.1 hq
    exact hcall (hkind hk rfl) (filterDispatch_checks hp hq)
  case h_7 hk hp =>
    obtain ⟨rfl, hq⟩ := Option.ite_none_right_eq_some.1 hq
    exact hcall (hkind hk rfl) (peqDispatch_checks hp hq)
  case h_8 hk hp =>
    obtain ⟨rfl, hq⟩ := Option.ite_none_right_eq_some.1 hq
    exact hcall (hkind hk rfl) (panDispatch_checks hp hq)
  case h_9 hk hp =>
    obtain ⟨rfl, hq⟩ := Option.ite_none_right_eq_some.1 hq
    exact hcall (hkind hk rfl) (siggenDispatch_checks hp hq)

end Calls

/-! ### What is stored and forwarded -/

section Stored

variable {d d' d'' : Device K} {i j : ObjRef} {level index : UInt16} {P : Obj → Prop}

/-- The calls between `d` and `d'` found objects with the property. -/
def Forwards (P : Obj → Prop) (d d' : Device K) : Prop :=
  Log.Grows (fun e => ∀ j o, e = .controlChanged j o → P o) d.log d'.log

theorem forwards_store {f : Obj → Obj} (hi : i < d.objects.length) (hP : P (f (d.obj i))) :
    Forwards P d (((d.modifyObj i f).notify i level index).controlChanged i) := by
  have hnotify : Forwards P d ((d.modifyObj i f).notify i level index) :=
    (uncalled_notify (d.modifyObj i f) i level index).mono fun e h j o he => absurd he (h j o)
  unfold controlChanged
  split_ifs
  · refine hnotify.trans (.concat (fun j o he => ?_) _)
    obtain ⟨-, rfl⟩ := Event.controlChanged.inj he
    rwa [obj_notify, obj_modifyObj_self hi]
  · exact hnotify

/-- A copy to a citizen carries the value of the proxy. -/
theorem forwards_grouperOnCommit (d : Device K) (i : ObjRef) :
    Forwards (fun o => o.num = (d.obj i).num) d (d.grouperOnCommit i) := by
  unfold grouperOnCommit
  split
  next level index _ =>
    refine (List.foldlRecOn (motive := fun d' : Device K => d'.objects.length = d.objects.length ∧
      (d'.obj i).num = (d.obj i).num ∧ Forwards (fun o => o.num = (d.obj i).num) d d') _ _
        ⟨rfl, rfl, .refl _⟩ ?_).2.2
    intro d' h c hc
    obtain ⟨hlength, hnum, hcalls⟩ := h
    obtain ⟨hlt, -, hne⟩ := mem_fanTargets hc
    have hcore := core_copyToCitizen i level index d' c
    refine ⟨?_, ?_, hcalls.trans (forwards_store (hlength ▸ hlt) hnum)⟩
    · rw [objects_eq_of_core hcore, writeNum, length_modifyObj, hlength]
    · rw [obj_eq_of_core hcore, writeNum, obj_modifyObj_ne hne, hnum]
  · exact .refl _

theorem forwards_commitNum (hi : i < d.objects.length) (v : F64) :
    Forwards (fun o => o.num = v) d (d.commitNum i v level index true) := by
  have hown : Forwards (fun o => o.num = v) d (((d.modifyObj i fun o =>
      { o with num := v }).notify i level index).controlChanged i) := forwards_store hi rfl
  have hcopies := forwards_grouperOnCommit (((d.modifyObj i fun o =>
    { o with num := v }).notify i level index).controlChanged i) i
  rw [obj_controlChanged, obj_notify, obj_modifyObj_self hi] at hcopies
  exact hown.trans hcopies

/-- A commit stores its value, and nothing else. -/
theorem obj_commitNum (hi : i < d.objects.length) (v : F64) (level index : UInt16) (j : ObjRef) :
    (d.commitNum i v level index true).obj j = d.obj j ∨
      ((d.commitNum i v level index true).obj j).num = v := by
  rw [obj_eq_of_core (core_commitNum hi v level index)]
  refine List.foldlRecOn (motive := fun d' : Device K => d'.obj j = d.obj j ∨ (d'.obj j).num = v)
    _ _ (.inl rfl) fun d' ih w hw => ?_
  have hv : w.2 = v := by
    obtain rfl | hw := List.mem_cons.1 hw
    · rfl
    · obtain ⟨c, -, rfl⟩ := List.mem_map.1 hw
      rfl
  rw [writeNum, obj_modifyObj]
  split_ifs
  · exact .inr hv
  · exact ih

theorem forwards_param (hi : i < d.objects.length) (w : ParamWrite) :
    Forwards (fun o => o = (d.param i true (some w)).obj i) d (d.param i true (some w)) := by
  refine forwards_store (f := fun o => { o with priv := (d.obj i).priv.write w }) hi ?_
  exact (obj_param hi w true).symm

end Stored

/-! ### Numbers -/

section Numbers

variable {d : Device K} {o : Obj} {i j : ObjRef} {level idx : UInt16} {q : RangeSetter}
  {rd : Reader}

theorem isNaN_toF64 (x : F32) : (toF64 x).isNaN = x.isNaN :=
  Ieee.Binary.isNaN_convert_eq (by decide) x

theorem isNaN_toF32 (x : F64) : (toF32 x).isNaN = x.isNaN :=
  Ieee.Binary.isNaN_convert_eq (by decide) x

/-- A number lies outside number bounds exactly if it does not lie between them. -/
theorem Checked.outside_iff {a : Checked} (hb : a.Bounded) (hv : a.value.isNaN = false) :
    a.outside = true ↔ ¬a.Within := by
  unfold outside Within
  constructor
  · rintro hout ⟨hlo, hhi⟩
    rcases Bool.or_eq_true_iff.1 hout with h | h
    · exact absurd (Ieee.Binary.lt_iff.1 h).2.2 (not_lt.2 (Ieee.Binary.le_iff.1 hlo).2.2)
    · exact absurd (Ieee.Binary.lt_iff.1 h).2.2 (not_lt.2 (Ieee.Binary.le_iff.1 hhi).2.2)
  · intro hnot
    by_contra hin
    rw [Bool.not_eq_true, Bool.or_eq_false_iff] at hin
    exact hnot ⟨Ieee.Binary.le_of_not_lt hb.1 hv hin.1, Ieee.Binary.le_of_not_lt hv hb.2 hin.2⟩

/-- A NaN is neither outside the bounds nor between them. -/
theorem Checked.outside_of_isNaN {a : Checked} (hv : a.value.isNaN = true) :
    a.outside = false ∧ ¬a.Within := by
  constructor
  · simp [outside, Ieee.Binary.lt, hv]
  · intro h
    rw [(Ieee.Binary.le_iff.1 h.1).2.1] at hv
    cases hv

/-- What a setter stores is a NaN exactly if what it reads is. -/
structure RangeSetter.Carries (q : RangeSetter) (o : Obj) (a : Checked) : Prop where
  num : a.num.isNaN = a.value.isNaN
  scalar : q.sel = .scalar → a.ref = none
  param : q.sel ≠ .scalar → (o.priv.write (q.write a)).floats q.sel =
    toF32 a.num :: (a.ref.map fun r => toF32 (toF64 r)).toList

theorem rangeSetter_carries (hq : o.rangeSetter level idx = some q) (rd : Reader) :
    q.Carries o (q.read rd).1 := by
  have hwide (x : F32) : (toF64 x).isNaN = x.isNaN := isNaN_toF64 x
  unfold Obj.rangeSetter at hq
  split at hq
  case h_10 => cases hq
  case h_1 | h_2 | h_3 | h_4 =>
    obtain ⟨-, hq⟩ := Option.ite_none_right_eq_some.1 hq
    obtain rfl := Option.some.inj hq
    exact ⟨rfl, fun _ => rfl, fun h => absurd rfl h⟩
  all_goals
    obtain ⟨-, hq⟩ := Option.ite_none_right_eq_some.1 hq
    first
      | unfold DynState.rangeSetter at hq
      | unfold FltState.rangeSetter at hq
      | unfold PeqState.rangeSetter at hq
      | unfold PanState.rangeSetter at hq
      | unfold SigState.rangeSetter at hq
    split at hq <;> cases hq
  all_goals
    refine ⟨hwide _, fun h => Sel.noConfusion h, fun _ => ?_⟩
    simp only [*]
    rfl

/-- An object after a checked write holds numbers exactly if the write carries some. -/
theorem numbers_param (hq : o.rangeSetter level idx = some q) (hsel : q.sel ≠ .scalar) :
    ({ o with priv := o.priv.write (q.write (q.read rd).1) } : Obj).Numbers q.sel ↔
      (q.read rd).1.value.isNaN = false ∧ ∀ r ∈ (q.read rd).1.ref, r.isNaN = false := by
  have hcarries := rangeSetter_carries hq rd
  unfold Obj.Numbers
  rw [if_neg hsel, hcarries.param hsel]
  simp [isNaN_toF32, isNaN_toF64, hcarries.num]

end Numbers

/-! ### Rejecting what is not a number -/

/-- The call of a setter with a range check ended in `r`: it accepted nothing outside the bounds,
and no NaN was stored or forwarded to the application. -/
structure RejectsNonNumbers (c : Call K) (i : ObjRef) (q : RangeSetter) (r : Status × Call K) :
    Prop where
  accepted : r.1 = .ok → (q.read c.rd).1.Within
  refused : ¬(q.read c.rd).1.Within → r.1 = .parameterOutOfRange ∧ r.2.dev = c.dev
  stored : r.1 = .ok → ∀ j, j = i ∨ r.2.dev.obj j ≠ c.dev.obj j → (r.2.dev.obj j).Numbers q.sel
  forwarded : Forwards (fun o => o.Numbers q.sel) c.dev r.2.dev

section Main

variable {d : Device K} {i j : ObjRef} {level idx : UInt16} {c : Call K} {q : RangeSetter}

theorem lt_of_rangeSetter (hq : (d.obj i).rangeSetter level idx = some q) :
    i < d.objects.length := by
  refine lt_of_kind fun hk => ?_
  unfold Obj.rangeSetter at hq
  rw [hk] at hq
  cases hq

/-- What an accepted number leaves behind, if it and its reference are no NaN. -/
theorem numbers_accept {rd : Reader} (hq : (d.obj i).rangeSetter level idx = some q)
    (hv : (q.read rd).1.value.isNaN = false) (hr : ∀ r ∈ (q.read rd).1.ref, r.isNaN = false) :
    (∀ j, j = i ∨ (d.accept i level q (q.read rd).1).obj j ≠ d.obj j →
      ((d.accept i level q (q.read rd).1).obj j).Numbers q.sel) ∧
    Forwards (fun o => o.Numbers q.sel) d (d.accept i level q (q.read rd).1) := by
  have hi := lt_of_rangeSetter hq
  have hnum : (q.read rd).1.num.isNaN = false := (rangeSetter_carries hq rd).num.trans hv
  unfold Device.accept
  split_ifs with hsel
  -- a scalar goes to the object and to its fellows in a group, a parameter to the object only
  · have hnumbers {o : Obj} (ho : o.num = (q.read rd).1.num) : o.Numbers q.sel := by
      rw [Obj.Numbers, if_pos hsel, ho]
      exact hnum
    refine ⟨fun j hj => ?_, (forwards_commitNum hi _).mono fun e h j o he => hnumbers (h j o he)⟩
    rcases obj_commitNum hi (q.read rd).1.num level 1 j with hsame | hstored
    · obtain rfl | hne := hj
      · exact hnumbers (num_commitNum hi _ _ _)
      · exact absurd hsame hne
    · exact hnumbers hstored
  · have hobj : ((d.param i true (some (q.write (q.read rd).1))).obj i).Numbers q.sel := by
      rw [obj_param hi]
      exact (numbers_param hq hsel).2 ⟨hv, hr⟩
    refine ⟨fun j hj => ?_, (forwards_param hi _).mono fun e h j o he => h j o he ▸ hobj⟩
    obtain rfl | hne := hj
    · exact hobj
    · by_cases hij : i = j
      · exact hij ▸ hobj
      · refine absurd ?_ hne
        rw [Device.param, obj_eq_of_core (core_dspWrite d i _ _ true), obj_modifyObj_ne hij]

/-- The reference of an accepted number is stored with it. -/
theorem ref_of_numbers {rd : Reader} (hq : (d.obj i).rangeSetter level idx = some q)
    (h : ((d.accept i level q (q.read rd).1).obj i).Numbers q.sel) :
    ∀ r ∈ (q.read rd).1.ref, r.isNaN = false := by
  by_cases hsel : q.sel = .scalar
  · intro r hr
    rw [(rangeSetter_carries hq rd).scalar hsel] at hr
    cases hr
  · rw [Device.accept, if_neg hsel, obj_param (lt_of_rangeSetter hq)] at h
    exact ((numbers_param hq hsel).1 h).2

/-- **A range check keeps out what is not a number** exactly if there is none: the number that is
checked is none, nor is, if that one is accepted, the reference that is stored with it. -/
theorem rejectsNonNumbers_iff (hq : (c.dev.obj i).rangeSetter level idx = some q)
    (hg : c.dev.gate i level idx = none) (hread : (q.read c.rd).2.err = false)
    (hb : (q.read c.rd).1.Bounded) :
    RejectsNonNumbers c i q (objectDispatch i level idx c) ↔
      (q.read c.rd).1.value.isNaN = false ∧
        ((q.read c.rd).1.Within → ∀ r ∈ (q.read c.rd).1.ref, r.isNaN = false) := by
  have hcall := objectDispatch_checks hq hg hread
  constructor
  · intro h
    have hv : (q.read c.rd).1.value.isNaN = false := by
      -- a NaN is not outside the bounds, so it would be accepted
      by_contra hnan
      rw [Bool.not_eq_false] at hnan
      obtain ⟨hin, hnot⟩ := Checked.outside_of_isNaN hnan
      rw [if_neg (by rw [hin]; exact Bool.false_ne_true)] at hcall
      exact hnot (h.accepted (Prod.mk.inj hcall).1)
    refine ⟨hv, fun hwithin => ?_⟩
    rw [if_neg fun hout => (Checked.outside_iff hb hv).1 hout hwithin] at hcall
    obtain ⟨hok, hdev⟩ := Prod.mk.inj hcall
    have hown := h.stored hok i (.inl rfl)
    rw [hdev] at hown
    exact ref_of_numbers hq hown
  · rintro ⟨hv, hr⟩
    by_cases hwithin : (q.read c.rd).1.Within
    · -- accepted: all that is stored and forwarded are the numbers that were read
      rw [if_neg fun hout => (Checked.outside_iff hb hv).1 hout hwithin] at hcall
      obtain ⟨-, hdev⟩ := Prod.mk.inj hcall
      obtain ⟨hstored, hforwarded⟩ := numbers_accept hq hv (hr hwithin)
      exact {
        accepted := fun _ => hwithin
        refused := fun hnot => absurd hwithin hnot
        stored := fun _ j hj => by
          rw [hdev] at hj ⊢
          exact hstored j hj
        forwarded := by
          rw [hdev]
          exact hforwarded }
    · -- refused: the device is as before
      rw [if_pos ((Checked.outside_iff hb hv).2 hwithin)] at hcall
      obtain ⟨hst, hdev⟩ := Prod.mk.inj hcall
      have hne : (objectDispatch i level idx c).1 ≠ .ok := by
        rw [hst]
        decide
      exact {
        accepted := fun hok => absurd hok hne
        refused := fun _ => ⟨hst, hdev⟩
        stored := fun hok => absurd hok hne
        forwarded := by
          rw [Forwards, hdev] }

end Main

/-! ### A gain -/

namespace Sample

/-- The sample device with a gain from -60 dB to 12 dB, object 3. -/
def gain : Device .default :=
  after [.create (.gain ⟨0xC2700000⟩ ⟨0x41400000⟩ .zero) none (ascii "gain")]

/-- A call of SetGain. -/
def setGain (v : Bytes) : Call .default := ⟨gain, Reader.ofBytes v, Writer.init 64, 0⟩

/-- The check of SetGain. -/
def gainSetter : RangeSetter := ⟨.scalar, checkWide (gain.obj 3).numMin (gain.obj 3).numMax⟩

theorem rangeSetter_gain : (gain.obj 3).rangeSetter 4 2 = some gainSetter := by
  have hkind : (gain.obj 3).kind = .gain := by decide
  unfold Obj.rangeSetter
  simp only [hkind]
  rfl

/-- A NaN passes the check of SetGain and is stored. -/
theorem not_rejectsNonNumbers_setGain :
    (gain.obj 3).rangeSetter 4 2 = some gainSetter ∧ gain.gate 3 4 2 = none ∧
    (gainSetter.read (Reader.ofBytes [0x7F, 0xC0, 0, 0])).1.Bounded ∧
    ((objectDispatch 3 4 2 (setGain [0x7F, 0xC0, 0, 0])).2.dev.obj 3).num.isNaN = true ∧
    ¬RejectsNonNumbers (setGain [0x7F, 0xC0, 0, 0]) 3 gainSetter
      (objectDispatch 3 4 2 (setGain [0x7F, 0xC0, 0, 0])) := by
  refine ⟨rangeSetter_gain, by decide, by decide, by decide, fun h => ?_⟩
  have hok : (objectDispatch 3 4 2 (setGain [0x7F, 0xC0, 0, 0])).1 = .ok := by decide
  have hwithin : ¬(gainSetter.read (setGain [0x7F, 0xC0, 0, 0]).rd).1.Within := by decide
  exact hwithin (h.accepted hok)

/-- 6 dB is a number. -/
theorem rejectsNonNumbers_setGain : RejectsNonNumbers (setGain [0x40, 0xC0, 0, 0]) 3 gainSetter
    (objectDispatch 3 4 2 (setGain [0x40, 0xC0, 0, 0])) := by
  have hnum : (gainSetter.read (setGain [0x40, 0xC0, 0, 0]).rd).1.value.isNaN = false := by decide
  exact (rejectsNonNumbers_iff rangeSetter_gain (by decide) (by decide) (by decide)).2
    ⟨hnum, fun _ r hr => absurd hr (Option.not_mem_none r)⟩

end Sample

end Aes70
