import Aes70.Server.Grouper
import Aes70.Server.Range

/-!
# Values that are integers

Eight classes have a value that is one of a few integers, kept in the field of type `double` that
all classes share. Constructors, setters and the typed set requests store such integers only, and so
do the copies to the citizens of a group. A recall stores what its blob says, as far as it lies
between the bounds of the object, if there are any.

* `Scalar.wire` : the integers of an object.
* `Action.Whole` : what a recall must not do for the values to stay integers.
* `discrete_of_whole` : then they do, in every run, and the casts lose nothing.
-/

namespace Aes70

open Device Handler

variable {K : Kconfig}

/-- The least and the greatest value of an object that has a discrete one. -/
def Scalar.wire (s : Scalar) : Option (ℤ × ℤ) :=
  match s.kind with
  | .mute | .polarity => some (1, 2)
  | .boolean | .identify => some (0, 1)
  | .switch => if s.swCount = 0 then none else some (0, s.swCount.toNat - 1)
  | .int32 => some (-2 ^ 31, 2 ^ 31 - 1)
  | .uint16 => some (0, 2 ^ 16 - 1)
  | .uint32 => some (0, 2 ^ 32 - 1)
  | _ => none

/-- The value is an integer between these. -/
def OnWire (r : ℤ × ℤ) (v : F64) : Prop := ∃ z, r.1 ≤ z ∧ z ≤ r.2 ∧ v.eqv (.ofInt z) = true

theorem onWire_ofInt {r : ℤ × ℤ} {z : ℤ} (hlo : r.1 ≤ z) (hhi : z ≤ r.2) : OnWire r (.ofInt z) :=
  ⟨z, hlo, hhi, Ieee.Binary.eqv_refl_of_number (Ieee.Binary.isNaN_ofInt z)⟩

theorem onWire_ofNat {r : ℤ × ℤ} {n : ℕ} (hlo : r.1 ≤ n) (hhi : (n : ℤ) ≤ r.2) :
    OnWire r (.ofNat n) := by
  rw [Ieee.Binary.ofNat_eq_ofInt]
  exact onWire_ofInt hlo hhi

theorem onWire_zero {r : ℤ × ℤ} (hlo : r.1 ≤ 0) (hhi : 0 ≤ r.2) : OnWire r .zero := by
  rw [← Ieee.Binary.ofNat_zero]
  exact onWire_ofNat hlo hhi

/-- Value and bounds are integers of the object. -/
structure Scalar.Discrete (s : Scalar) : Prop where
  num : ∀ r ∈ s.wire, OnWire r s.num
  bounds : s.kind.isRanged = true → ∀ r ∈ s.wire, OnWire r s.numMin ∧ OnWire r s.numMax

/-! ### One object -/

section One

variable {o : Obj} {v : F64}

theorem onWire_clampd {r : ℤ × ℤ} {lo hi : F64} (hv : OnWire r v) (hlo : OnWire r lo)
    (hhi : OnWire r hi) : OnWire r (clampd v lo hi) := by
  unfold clampd
  split_ifs
  · exact hlo
  · exact hhi
  · exact hv

/-- An object that starts with integers for value and bounds. -/
theorem makeNum_discrete {lo hi : F64} (hv : ∀ r ∈ o.scalar.wire, OnWire r v)
    (hlo : ∀ r ∈ o.scalar.wire, OnWire r lo) (hhi : ∀ r ∈ o.scalar.wire, OnWire r hi) :
    (makeNum lo hi v o).scalar.Discrete where
  num r hr := onWire_clampd (hv r hr) (hlo r hr) (hhi r hr)
  bounds _ r hr := ⟨hlo r hr, hhi r hr⟩

theorem discrete_of_none (h : o.scalar.wire = none) : o.scalar.Discrete := by
  constructor <;> simp [h]

theorem setupSwitch_onWire {names : Option (List Bytes)} {count init : UInt16} (hk : o.kind = .switch)
    (hcount : o.swCount = 0) :
    ∀ r ∈ (Create.setupSwitch names count init o).scalar.wire,
      OnWire r (Create.setupSwitch names count init o).num := by
  intro r hr
  have hnone (o' : Obj) (hk' : o'.kind = .switch) (hcount' : o'.swCount = 0) :
      o'.scalar.wire = none := by simp [Obj.scalar, Scalar.wire, hk', hcount']
  cases names with
  | none =>
    rw [hnone (Create.setupSwitch none count init o) hk hcount] at hr
    cases hr
  | some ns =>
    by_cases h0 : count = 0
    · have hzero : (Create.setupSwitch (some ns) count init o).swCount = 0 := by
        simp [Create.setupSwitch, h0, hcount]
      have hkind : (Create.setupSwitch (some ns) count init o).kind = .switch := by
        simp [Create.setupSwitch, h0, hk]
      rw [hnone _ hkind hzero] at hr
      cases hr
    · have hwire : (Create.setupSwitch (some ns) count init o).scalar.wire =
          some (0, (count.toNat : ℤ) - 1) := by
        simp [Create.setupSwitch, h0, Obj.scalar, Scalar.wire, hk]
      have hnum : (Create.setupSwitch (some ns) count init o).num =
          if init < count then .ofNat init.toNat else .zero := by
        simp [Create.setupSwitch, h0]
      rw [hwire] at hr
      obtain rfl := Option.some.inj hr
      have hpos : 0 < count.toNat := Nat.pos_of_ne_zero fun h => h0 (UInt16.toNat_inj.1 h)
      rw [hnum]
      split
      next hlt =>
        have hlt : init.toNat < count.toNat := hlt
        exact onWire_ofNat (Int.natCast_nonneg _) (by dsimp only; omega)
      · exact onWire_zero (Int.le_refl _) (by dsimp only; omega)

/-- **A constructor starts with integers.** -/
theorem setup_discrete {call : Create} (h : o.scalar = .blank call.kind) :
    (call.setup o).scalar.Discrete := by
  have hk : o.kind = call.kind := congrArg Scalar.kind h
  have hcount : o.swCount = 0 := congrArg Scalar.swCount h
  have hwire : o.scalar.wire = (Scalar.blank call.kind).wire := by rw [h]
  have hkind : (call.setup o).kind = call.kind := (call.setup_kind o).trans hk
  cases call with
  | mute muted | polarity muted =>
    refine makeNum_discrete ?_ ?_ ?_ <;> rw [hwire] <;> intro r hr <;>
      obtain rfl := Option.some.inj hr
    · cases muted <;> exact onWire_ofNat (by decide) (by decide)
    · exact onWire_ofNat (by decide) (by decide)
    · exact onWire_ofNat (by decide) (by decide)
  | boolean v =>
    refine makeNum_discrete ?_ ?_ ?_ <;> rw [hwire] <;> intro r hr <;>
      obtain rfl := Option.some.inj hr
    · cases v <;> exact onWire_ofNat (by decide) (by decide)
    · exact onWire_ofNat (by decide) (by decide)
    · exact onWire_ofNat (by decide) (by decide)
  | identify =>
    refine makeNum_discrete ?_ ?_ ?_ <;> rw [hwire] <;> intro r hr <;>
      obtain rfl := Option.some.inj hr <;> exact onWire_ofNat (by decide) (by decide)
  | uint16 lo hi v | uint32 lo hi v =>
    refine makeNum_discrete ?_ ?_ ?_ <;> rw [hwire] <;> intro r hr <;>
      obtain rfl := Option.some.inj hr
    · exact onWire_ofNat (Int.natCast_nonneg _) (by have := v.toNat_lt; omega)
    · exact onWire_ofNat (Int.natCast_nonneg _) (by have := lo.toNat_lt; omega)
    · exact onWire_ofNat (Int.natCast_nonneg _) (by have := hi.toNat_lt; omega)
  | int32 lo hi v =>
    refine makeNum_discrete ?_ ?_ ?_ <;> rw [hwire] <;> intro r hr <;>
      obtain rfl := Option.some.inj hr
    · exact onWire_ofInt (by have := v.le_toInt; omega) (by have := v.toInt_lt; omega)
    · exact onWire_ofInt (by have := lo.le_toInt; omega) (by have := lo.toInt_lt; omega)
    · exact onWire_ofInt (by have := hi.le_toInt; omega) (by have := hi.toInt_lt; omega)
  | switch names count init =>
    constructor
    · exact setupSwitch_onWire hk hcount
    · intro hr
      change ((Create.switch names count init).setup o).kind.isRanged = true at hr
      rw [hkind] at hr
      cases hr
  | _ => exact discrete_of_none (by simp [Obj.scalar, Scalar.wire, hkind, Create.kind])

/-- **A proxy starts with integers.** -/
theorem initProxy_discrete {k : Kind} (hk : k ∈ [Kind.gain, .mute, .boolean])
    (h : o.scalar = .blank k) : (initProxy o).scalar.Discrete := by
  have hkind : o.kind = k := congrArg Scalar.kind h
  simp only [List.mem_cons, List.not_mem_nil, or_false] at hk
  rcases hk with rfl | rfl | rfl
  · exact discrete_of_none (by simp [initProxy, hkind, Obj.scalar, Scalar.wire])
  · have hscalar : (initProxy o).scalar = ⟨.mute, .ofNat 2, o.numMin, o.numMax, o.swCount⟩ := by
      simp [initProxy, hkind, Obj.scalar]
    rw [hscalar]
    refine ⟨fun r hr => ?_, fun hr => by cases hr⟩
    obtain rfl := Option.some.inj hr
    exact onWire_ofNat (by decide) (by decide)
  · have hscalar : (initProxy o).scalar = ⟨.boolean, .zero, o.numMin, o.numMax, o.swCount⟩ := by
      simp [initProxy, hkind, Obj.scalar]
    rw [hscalar]
    refine ⟨fun r hr => ?_, fun hr => by cases hr⟩
    obtain rfl := Option.some.inj hr
    exact onWire_zero (by decide) (by decide)

/-- **A setter sets integers.** -/
theorem setting_onWire {rd : Reader} (h : setting o rd = some v) :
    ∀ r ∈ o.scalar.wire, OnWire r v := by
  intro r hr
  have hwire : o.scalar.wire = some r := hr
  cases hk : o.kind with
  | mute | polarity =>
    simp only [setting, hk] at h
    obtain ⟨x, hin, rfl⟩ := accepted_some h
    simp only [Obj.scalar, Scalar.wire, hk, Option.some.injEq] at hwire
    subst hwire
    -- the setter refuses everything but 1 and 2
    have hx : x = 1 ∨ x = 2 := by
      by_contra! hne
      simp [hne] at hin
    rcases hx with rfl | rfl <;> exact onWire_ofNat (by decide) (by decide)
  | boolean | identify =>
    simp only [setting, hk] at h
    obtain ⟨x, -, rfl⟩ := accepted_some h
    simp only [Obj.scalar, Scalar.wire, hk, Option.some.injEq] at hwire
    subst hwire
    unfold flag
    split_ifs <;> exact onWire_ofNat (by decide) (by decide)
  | int32 =>
    simp only [setting, hk] at h
    obtain rfl := accepted_read h
    simp only [Obj.scalar, Scalar.wire, hk, Option.some.injEq] at hwire
    subst hwire
    let x := (Read.u32 rd).1.toInt32
    have hlo := x.le_toInt
    have hhi := x.toInt_lt
    exact onWire_ofInt (z := x.toInt) hlo (Int.le_sub_one_of_lt hhi)
  | uint16 =>
    simp only [setting, hk] at h
    obtain rfl := accepted_read h
    simp only [Obj.scalar, Scalar.wire, hk, Option.some.injEq] at hwire
    subst hwire
    have hlt := (Read.u16 rd).1.toNat_lt
    exact onWire_ofNat (Int.natCast_nonneg _) (Int.le_sub_one_of_lt (by exact_mod_cast hlt))
  | uint32 =>
    simp only [setting, hk] at h
    obtain rfl := accepted_read h
    simp only [Obj.scalar, Scalar.wire, hk, Option.some.injEq] at hwire
    subst hwire
    have hlt := (Read.u32 rd).1.toNat_lt
    exact onWire_ofNat (Int.natCast_nonneg _) (Int.le_sub_one_of_lt (by exact_mod_cast hlt))
  | switch =>
    simp only [setting, hk] at h
    obtain ⟨x, hin, rfl⟩ := accepted_some h
    have hlt := lt_of_position hin
    -- a position was accepted, so there is one
    have hcount : o.swCount ≠ 0 := by
      intro h0
      rw [h0] at hlt
      exact Nat.not_lt_zero _ hlt
    simp only [Obj.scalar, Scalar.wire, hk, if_neg hcount, Option.some.injEq] at hwire
    subst hwire
    exact onWire_ofNat (Int.natCast_nonneg _) (by dsimp only; omega)
  | _ => simp [Obj.scalar, Scalar.wire, hk] at hwire

theorem onWire_clamp {r : ℤ × ℤ} {lo hi : F64} (hv : OnWire r v) (hlo : OnWire r lo)
    (hhi : OnWire r hi) :
    OnWire r (if hi.lt (if v.lt lo then lo else v) then hi else if v.lt lo then lo else v) := by
  split_ifs <;> assumption

/-- The clamping of a position. -/
theorem clampSet_position (hk : o.kind = .switch) (hcount : o.swCount ≠ 0) (pos : UInt16) :
    OnWire (0, (o.swCount.toNat : ℤ) - 1) (clampSet o (.ofNat pos.toNat)) := by
  have hpos : 0 < o.swCount.toNat := Nat.pos_of_ne_zero fun h => hcount (UInt16.toNat_inj.1 h)
  have hlt := o.swCount.toNat_lt
  have hp := pos.toNat_lt
  have hlow : (.ofNat pos.toNat : F64).lt .zero = false := by
    rw [← Ieee.Binary.ofNat_zero]
    exact Bool.eq_false_iff.2 fun h => by
      have := (lt_ofNat_iff (by omega) (by omega)).1 h
      omega
  simp only [clampSet, hk, hlow, Bool.false_eq_true, if_false]
  split
  · exact onWire_ofInt (by dsimp only; omega) (Int.le_refl _)
  next hlast =>
    refine onWire_ofNat (Int.natCast_nonneg _) ?_
    by_contra hgt
    refine hlast ⟨hcount, ?_⟩
    have heq : (o.swCount.toNat : ℤ) - 1 = (o.swCount.toNat - 1 : ℕ) := by omega
    rw [heq, ← Ieee.Binary.ofNat_eq_ofInt]
    exact (lt_ofNat_iff (by omega) (by omega)).2 (by dsimp only at hgt; omega)

/-- **A typed set request stores an integer.** -/
theorem clampSet_onWire (hd : o.scalar.Discrete) {req : SetReq} (ht : TypedSet o req) :
    ∀ r ∈ o.scalar.wire, OnWire r (clampSet o req.num) := by
  intro r hr
  have hwire : o.scalar.wire = some r := hr
  cases ht with
  | mute hk muted | polarity hk muted =>
    simp only [Obj.scalar, Scalar.wire, hk, Option.some.injEq] at hwire
    subst hwire
    simp only [clampSet, hk, setNum]
    cases muted <;> exact onWire_ofNat (by decide) (by decide)
  | boolean hk v | identify hk v =>
    simp only [Obj.scalar, Scalar.wire, hk, Option.some.injEq] at hwire
    subst hwire
    simp only [clampSet, hk, setNum]
    cases v <;> exact onWire_ofNat (by decide) (by decide)
  | switch hk pos =>
    have hcount : o.swCount ≠ 0 := by
      intro h0
      simp [Obj.scalar, Scalar.wire, hk, h0] at hwire
    simp only [Obj.scalar, Scalar.wire, hk, if_neg hcount, Option.some.injEq] at hwire
    subst hwire
    exact clampSet_position hk hcount pos
  | uint16 hk v | uint32 hk v =>
    -- the value of the request is one, and so are the bounds it is clamped to
    obtain ⟨hmin, hmax⟩ := hd.bounds (by rw [Obj.scalar, hk]; rfl) r hr
    simp only [Obj.scalar, Scalar.wire, hk, Option.some.injEq] at hwire
    subst hwire
    simp only [clampSet, hk, setNum]
    have hlt := v.toNat_lt
    refine onWire_clamp (onWire_ofNat (Int.natCast_nonneg _) ?_) hmin hmax
    exact Int.le_sub_one_of_lt (by exact_mod_cast hlt)
  | int32 hk v =>
    obtain ⟨hmin, hmax⟩ := hd.bounds (by rw [Obj.scalar, hk]; rfl) r hr
    simp only [Obj.scalar, Scalar.wire, hk, Option.some.injEq] at hwire
    subst hwire
    simp only [clampSet, hk, setNum]
    exact onWire_clamp (onWire_ofInt v.le_toInt (Int.le_sub_one_of_lt v.toInt_lt)) hmin hmax
  | gain hk | delay hk | float hk | string hk | levelSensor hk | frequency hk | temperature hk
  | dynFunction hk | dynFloat hk | dynTriggered hk | fltFrequency hk | fltByte hk | fltOrder hk
  | peqFloat hk | peqShape hk | panPosition hk | sigFloat hk | sigWaveform hk | sigGenerating hk =>
    simp [Obj.scalar, Scalar.wire, hk] at hwire

end One

/-! ### Copies -/

section Copies

variable {d : Device K}

/-- **Copies go to objects of the class of the proxy**, which is one of three. -/
theorem kind_of_copies (hr : d.Registry) (hd : d.Grouped) {w c : ObjRef} (hc : c ∈ d.copies w) :
    (d.obj c).kind = (d.obj w).kind ∧ (d.obj c).kind ∈ [Kind.gain, .mute, .boolean] := by
  unfold copies at hc
  split_ifs at hc
  · obtain ⟨k, hk, gi, ⟨hkind, -⟩, g, ci, hp, ⟨hused, -⟩, hfind, hsame, -⟩ := mem_fanTargets_iff.1 hc
    obtain ⟨kind, γ, ⟨g', hp', hkg, hrep⟩, hcitizens⟩ := hd k hk hkind
    obtain rfl := Priv.grouper.inj (hp.symm.trans hp')
    -- the citizen is of the kind of the grouper
    obtain ⟨t, ht, hono, htk⟩ :=
      hcitizens ci (g.citizens ci).ono (by rw [hrep.citizens, hused]; rfl)
    obtain rfl : t = c := by
      rw [← hono, hr.find_ono ht] at hfind
      exact Option.some.inj hfind
    refine ⟨hsame, ?_⟩
    rw [htk, ← hkg]
    exact g.citizenKind_mem
  · exact absurd hc List.not_mem_nil

/-- An integer of the proxy is one of the citizen. -/
theorem onWire_copy (hr : d.Registry) (hd : d.Grouped) {w c : ObjRef} {v : F64} (hc : c ∈ d.copies w)
    (hv : ∀ r ∈ (d.obj w).scalar.wire, OnWire r v) : ∀ r ∈ (d.obj c).scalar.wire, OnWire r v := by
  obtain ⟨hsame, hkind⟩ := kind_of_copies hr hd hc
  have hwire : (d.obj w).scalar.wire = (d.obj c).scalar.wire := by
    have hk (o : Obj) (hmem : o.kind ∈ [Kind.gain, .mute, .boolean]) :
        o.scalar.wire = (Scalar.blank o.kind).wire := by
      simp only [List.mem_cons, List.not_mem_nil, or_false] at hmem
      rcases hmem with hk | hk | hk <;> simp [Obj.scalar, Scalar.wire, Scalar.blank, hk]
    rw [hk _ hkind, hk _ (hsame ▸ hkind), hsame]
  exact hwire ▸ hv

end Copies

/-! ### Runs -/

namespace Action

/-- The application uses the typed setters. -/
def Typed (d : Device K) : Action K → Prop
  | .operation (.set req) => ∃ i < d.objects.length, TypedSet (d.obj i) req
  | _ => True

/-- A value that is recalled into a discrete object is, within the bounds, one of its integers. -/
def Whole (d : Device K) : Action K → Prop
  | .operation (.command conn cmd rd) => ∀ t v, d.RecallsTo conn cmd rd t v →
    ∀ r ∈ (d.obj t).scalar.wire, OnWire r (clampToRange (d.obj t) v)
  | _ => True

end Action

section Runs

variable {d : Device K}

/-- A value that a command writes is an integer of the object. -/
theorem command_onWire (hr : d.Registry) (hd : d.Grouped) {conn : ℕ} {cmd : Command} {rd : Reader}
    (hwhole : (Action.operation (.command conn cmd rd) : Action K).Whole d) {i : ObjRef} {v : F64}
    (hw : (i, v) ∈ (d.commandEffects conn cmd rd).nums) :
    ∀ r ∈ (d.obj i).scalar.wire, OnWire r v := by
  have hcommit {j : ObjRef} {x : F64} (hx : ∀ r ∈ (d.obj j).scalar.wire, OnWire r x)
      (hw : (i, v) ∈ d.commitWrites j x) : ∀ r ∈ (d.obj i).scalar.wire, OnWire r v := by
    rcases List.mem_cons.1 hw with heq | hcopy
    · obtain ⟨rfl, rfl⟩ := Prod.mk.inj heq
      exact hx
    · obtain ⟨c, hc, heq⟩ := List.mem_map.1 hcopy
      obtain ⟨rfl, rfl⟩ := Prod.mk.inj heq
      exact onWire_copy hr hd hc hx
  rcases mem_commandEffects hw with ⟨j, x, hset, hw⟩ | ⟨t, x, hrecall, hw⟩
  · exact hcommit (setting_onWire hset.2.2.2.2) hw
  · exact hcommit (hwhole t x hrecall) hw

theorem action_discrete {a : Action K} (ha : a.Legal d) (htyped : a.Typed d) (hwhole : a.Whole d)
    (hr : d.Registry) (hd : d.Grouped) (hall : d.All Scalar.Discrete) :
    (a.run d).All Scalar.Discrete := by
  refine (action_changes ha).all hall (fun i hi v hlast => ?_) fun k p f hB o ho => ?_
  · refine ⟨?_, (hall i hi).bounds⟩
    have hw := mem_of_lastWrite hlast
    cases a with
    | operation op =>
      cases op with
      | command conn cmd rd => exact command_onWire hr hd hwhole hw
      | set req =>
        obtain ⟨j, hf, -, heq⟩ := mem_requestEffects hw
        obtain ⟨rfl, rfl⟩ := Prod.mk.inj heq
        obtain ⟨t, ht, htyped⟩ := htyped
        have hono : req.ono = (d.obj t).ono := by cases htyped <;> rfl
        obtain rfl : t = i := by
          rw [hono, hr.find_ono ht] at hf
          exact Option.some.inj hf
        exact clampSet_onWire (hall t hi) htyped
    | create call parent role => exact absurd hw List.not_mem_nil
    | other d' => exact absurd hw List.not_mem_nil
  · cases a with
    | create call parent role =>
      obtain ⟨rfl, -, rfl⟩ := hB
      exact setup_discrete ho
    | operation op =>
      obtain ⟨hk, -, rfl⟩ := hB
      exact initProxy_discrete hk ho
    | other d' => exact hB.elim

/-- The value and its casts are this integer. -/
def Obj.Exact (o : Obj) (z : ℤ) : Prop :=
  o.num.eqv (.ofInt z) = true ∧
    match o.kind with
    | .mute | .polarity => ((toU8 o.num).toNat : ℤ) = z
    | .boolean | .identify => ((flag (isNonzero o.num)).toNat : ℤ) = z
    | .switch | .uint16 => ((toU16 o.num).toNat : ℤ) = z
    | .uint32 => ((toU32 o.num).toNat : ℤ) = z
    | .int32 => (toU32 o.num).toInt32.toInt = z
    | _ => True

/-- The value of an integer below 2^53 is cut to it. -/
theorem trunc_of_onWire {v : F64} {z : ℤ} (hz : z.natAbs < 2 ^ 53) (h : v.eqv (.ofInt z) = true) :
    v.trunc = z :=
  (Ieee.Binary.trunc_of_eqv h).trans (Ieee.Binary.trunc_ofInt (by decide) (by decide) hz)

theorem flag_of_eqv {v : F64} {z : ℤ} (hz : z = 0 ∨ z = 1) (h : v.eqv (.ofInt z) = true) :
    ((flag (isNonzero v)).toNat : ℤ) = z := by
  obtain ⟨hv, -, hkey⟩ := Ieee.Binary.eqv_iff.1 h
  have hzero : v.eqv .zero = decide (z = 0) := by
    rcases hz with rfl | rfl
    · have heq : (.ofInt 0 : F64).key = (.zero : F64).key := by decide
      simp [Ieee.Binary.eqv, hv, hkey, heq, Ieee.Binary.isNaN_zero]
    · have hne : (.ofInt 1 : F64).key ≠ (.zero : F64).key := by decide
      simp [Ieee.Binary.eqv, hkey, hne]
  rw [isNonzero, hzero]
  rcases hz with rfl | rfl <;> rfl

theorem exact_of_onWire {o : Obj} {r : ℤ × ℤ} (hr : r ∈ o.scalar.wire) (h : OnWire r o.num) :
    ∃ z, r.1 ≤ z ∧ z ≤ r.2 ∧ o.Exact z := by
  obtain ⟨z, hlo, hhi, heqv⟩ := h
  refine ⟨z, hlo, hhi, heqv, ?_⟩
  have hwire : o.scalar.wire = some r := hr
  cases hk : o.kind with
  | mute | polarity =>
    simp only [Obj.scalar, Scalar.wire, hk, Option.some.injEq] at hwire
    subst hwire
    dsimp only at hlo hhi ⊢
    rw [toU8, trunc_of_onWire (by omega) heqv]
    exact toNat_ofInt8 (by omega) (by omega)
  | boolean | identify =>
    simp only [Obj.scalar, Scalar.wire, hk, Option.some.injEq] at hwire
    subst hwire
    exact flag_of_eqv (by dsimp only at hlo hhi; omega) heqv
  | uint16 =>
    simp only [Obj.scalar, Scalar.wire, hk, Option.some.injEq] at hwire
    subst hwire
    dsimp only at hlo hhi ⊢
    rw [toU16, trunc_of_onWire (by omega) heqv]
    exact toNat_ofInt16 (by omega) (by omega)
  | uint32 =>
    simp only [Obj.scalar, Scalar.wire, hk, Option.some.injEq] at hwire
    subst hwire
    dsimp only at hlo hhi ⊢
    rw [toU32, trunc_of_onWire (by omega) heqv]
    exact toNat_ofInt32 (by omega) (by omega)
  | int32 =>
    simp only [Obj.scalar, Scalar.wire, hk, Option.some.injEq] at hwire
    subst hwire
    dsimp only at hlo hhi ⊢
    rw [toU32, trunc_of_onWire (by omega) heqv]
    exact toInt_ofInt32 (by omega) (by omega)
  | switch =>
    have hcount : o.swCount ≠ 0 := by
      intro h0
      simp [Obj.scalar, Scalar.wire, hk, h0] at hwire
    simp only [Obj.scalar, Scalar.wire, hk, if_neg hcount, Option.some.injEq] at hwire
    subst hwire
    dsimp only at hlo hhi ⊢
    have hlt := o.swCount.toNat_lt
    rw [toU16, trunc_of_onWire (by omega) heqv]
    exact toNat_ofInt16 (by omega) (by omega)
  | _ => trivial

/-- **Discrete values stay integers** of their objects in every run where the recalls are, and every
cast of a value to its type on the wire gives this integer. -/
theorem discrete_of_whole
    (h : ((control K).restrict fun d a => a.Typed d ∧ a.Whole d).Reach d) :
    ∀ i < d.objects.length, ∀ r ∈ (d.obj i).scalar.wire,
      ∃ z, r.1 ≤ z ∧ z ≤ r.2 ∧ (d.obj i).Exact z := by
  have hall : d.All Scalar.Discrete := by
    refine h.invariant (fun _ h => all_start h ?_) fun d a hd hall hok =>
      action_discrete hok.1 hok.2.1 hok.2.2 (reach_tree hd.of_restrict).registry
        (grouped_of_reach hd.of_restrict) hall
    intro k hk
    simp only [List.mem_cons, List.not_mem_nil, or_false] at hk
    rcases hk with rfl | rfl | rfl <;> exact ⟨nofun, nofun⟩
  exact fun i hi r hr => exact_of_onWire hr ((hall i hi).num r hr)

end Runs

namespace Sample

theorem reach_whole_grouped :
    ((control .default).restrict fun d a => a.Typed d ∧ a.Whole d).Reach grouped := by
  have hstart : ((control .default).restrict fun d a => a.Typed d ∧ a.Whole d).Reach start :=
    .init ⟨config, net, (Option.some_get _).symm⟩
  have hcreate (d : Device .default) (call : Create) (role : Bytes) :
      ((control .default).restrict fun d a => a.Typed d ∧ a.Whole d).ok d
        (.create call none role) := ⟨fun _ h => (nomatch h), trivial, trivial⟩
  have hcommand (d : Device .default) (n : UInt32) (l i : UInt16) (k : UInt8) (ps : Bytes)
      (hi : i ≠ 26) :
      ((control .default).restrict fun d a => a.Typed d ∧ a.Whole d).ok d (sent n l i k ps) := by
    refine ⟨trivial, trivial, fun t v h => ?_⟩
    obtain ⟨b, -, -, -, -, hindex, -⟩ := h
    exact absurd hindex hi
  have hrun : ((control .default).restrict fun d a => a.Typed d ∧ a.Whole d).Run start groupSteps
      grouped :=
    .cons (hcreate _ _ _) (.cons (hcreate _ _ _) (.cons (hcommand _ _ _ _ _ _ (by decide))
      (.cons (hcommand _ _ _ _ _ _ (by decide)) (.cons (hcommand _ _ _ _ _ _ (by decide))
        (.nil _)))))
  exact hstart.run hrun

/-- The parameters of `ApplyParameterData` with this value for the mute 4097. -/
def muteBlob (v : Bytes) : Bytes := [0, 0, 0, 14, 0, 1, 0, 0, 0x10, 1] ++ v

/-- The recall of this value by the root block. -/
def recallMuteTo (v : Bytes) : Action .default := sent 100 3 26 1 (muteBlob v)

theorem recallMuteTo_recalls {bs : Bytes} {x v : F64} {t : ObjRef}
    (hv : recallParams (Reader.ofBytes (muteBlob bs)) = some ([(4097, v)], false))
    (h : grouped.RecallsTo 0 ⟨1, 100, 3, 26, 1, muteBlob bs⟩ (Reader.ofBytes (muteBlob bs)) t x) :
    t = 4 ∧ x = v := by
  obtain ⟨b, -, -, -, -, -, es, truncated, ono, p, hread, hmem, htarget⟩ := h
  obtain ⟨rfl, -⟩ := Prod.mk.inj (Option.some.inj (hv.symm.trans hread))
  obtain ⟨rfl, rfl⟩ := Prod.mk.inj (List.mem_singleton.1 hmem)
  have hmute : recallTarget grouped 4097 = some (4, 4, 1) := by decide
  obtain ⟨rfl, -⟩ := Prod.mk.inj (Option.some.inj (htarget.symm.trans hmute))
  exact ⟨rfl, rfl⟩

/-- A recall of 1 mutes. -/
theorem discrete_recallMute : ∃ z, 1 ≤ z ∧ z ≤ 2 ∧
    (((recallMuteTo [0x3F, 0xF0, 0, 0, 0, 0, 0, 0]).run grouped).obj 4).Exact z := by
  have hv : recallParams (Reader.ofBytes (muteBlob [0x3F, 0xF0, 0, 0, 0, 0, 0, 0])) =
      some ([(4097, .ofNat 1)], false) := by decide
  have hok : ((control .default).restrict fun d a => a.Typed d ∧ a.Whole d).ok grouped
      (recallMuteTo [0x3F, 0xF0, 0, 0, 0, 0, 0, 0]) := by
    refine ⟨trivial, trivial, fun t v h r hr => ?_⟩
    obtain ⟨rfl, rfl⟩ := recallMuteTo_recalls hv h
    have hwire : (grouped.obj 4).scalar.wire = some (1, 2) := by decide
    obtain rfl := Option.some.inj (hwire.symm.trans hr)
    have hclamp : clampToRange (grouped.obj 4) (.ofNat 1) = .ofNat 1 := by decide
    rw [hclamp]
    exact onWire_ofNat (by decide) (by decide)
  have hreach := reach_whole_grouped.step hok
  exact discrete_of_whole hreach 4 (by decide) (1, 2) (by decide)

/-- A recall of 1.5 leaves a mute that is neither muted nor not. -/
theorem not_discrete_recallMute : ((control .default).restrict Action.Typed).Reach
      ((recallMuteTo [0x3F, 0xF8, 0, 0, 0, 0, 0, 0]).run grouped) ∧
    (((recallMuteTo [0x3F, 0xF8, 0, 0, 0, 0, 0, 0]).run grouped).obj 4).scalar.wire =
        some (1, 2) ∧
      ¬∃ z, 1 ≤ z ∧ z ≤ 2 ∧
        (((recallMuteTo [0x3F, 0xF8, 0, 0, 0, 0, 0, 0]).run grouped).obj 4).Exact z := by
  have hgrouped : ((control .default).restrict Action.Typed).Reach grouped :=
    reach_whole_grouped.restrict_mono fun _ _ h => h.1
  have hok : ((control .default).restrict Action.Typed).ok grouped
      (recallMuteTo [0x3F, 0xF8, 0, 0, 0, 0, 0, 0]) := ⟨trivial, trivial⟩
  have hreach := hgrouped.step hok
  have hone : (((recallMuteTo [0x3F, 0xF8, 0, 0, 0, 0, 0, 0]).run grouped).obj 4).num.eqv
      (.ofInt 1) = false := by decide
  have htwo : (((recallMuteTo [0x3F, 0xF8, 0, 0, 0, 0, 0, 0]).run grouped).obj 4).num.eqv
      (.ofInt 2) = false := by decide
  refine ⟨?_, by decide, ?_⟩
  · exact hreach
  · rintro ⟨z, hlo, hhi, heqv, -⟩
    obtain rfl | rfl : z = 1 ∨ z = 2 := by omega
    · rw [hone] at heqv
      cases heqv
    · rw [htwo] at heqv
      cases heqv

end Sample

end Aes70
