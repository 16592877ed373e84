import Aes70.Ieee.Order
import Aes70.Server.Snapshot

/-!
# Values and their ranges

Nine classes have a value and two bounds for it. Their setters refuse a value outside the bounds,
and a set request is cut off at them. But a commit of the proxy of a group is copied to the citizens
whatever their bounds are, and a recall cuts nothing off where the bounds are equal.

* `Action.Plain` : bounds are ordered, and controllers send numbers.
* `Action.Fits` : what a step must not do for the values to stay in range.
* `inRange_of_fits` : then they do, in every run of the machine `tame`.
-/

namespace Aes70

open Device Handler

variable {K : Kconfig}

/-- The value lies between the bounds. -/
def Scalar.InRange (s : Scalar) : Prop :=
  s.kind.isRanged = true → s.numMin.le s.num = true ∧ s.num.le s.numMax = true

/-- The bounds a constructor is called with, and the value to start from. -/
def Create.range : Create → Option (F64 × F64 × F64)
  | .gain lo hi v | .float lo hi v | .frequency lo hi v => some (toF64 lo, toF64 hi, toF64 v)
  | .delay lo hi v => some (lo, hi, v)
  | .uint16 lo hi v => some (.ofNat lo.toNat, .ofNat hi.toNat, .ofNat v.toNat)
  | .uint32 lo hi v => some (.ofNat lo.toNat, .ofNat hi.toNat, .ofNat v.toNat)
  | .int32 lo hi v => some (.ofInt lo.toInt, .ofInt hi.toInt, .ofInt v.toInt)
  | .levelSensor lo hi | .temperature lo hi => some (toF64 lo, toF64 hi, toF64 lo)
  | _ => none

namespace Action

/-- Constructors are given ordered bounds, and commands carry numbers. -/
def Plain (d : Device K) : Action K → Prop
  | .create call _ _ => ∀ r ∈ call.range, r.1.le r.2.1 = true
  | .operation (.command conn cmd rd) =>
    (∀ j v, d.Sets conn cmd rd j v → v.isNaN = false) ∧
      ∀ t v, d.RecallsTo conn cmd rd t v → v.isNaN = false
  | _ => True

/-- The application passes numbers; a value that is copied to a citizen fits the citizen; a value
that is recalled into an object with equal bounds is this bound. -/
def Fits (d : Device K) : Action K → Prop
  | .create call _ _ => ∀ r ∈ call.range, r.2.2.isNaN = false
  | .operation (.command conn cmd rd) =>
    (∀ j v, d.Sets conn cmd rd j v →
        ∀ c ∈ d.copies j, (d.obj c).kind.isRanged = true → (d.obj c).outside v = false) ∧
      ∀ t v, d.RecallsTo conn cmd rd t v →
        ((d.obj t).kind.isRanged = true → (d.obj t).numMin.lt (d.obj t).numMax = true ∨
          (d.obj t).outside v = false) ∧
        ∀ c ∈ d.copies t, (d.obj c).kind.isRanged = true →
          (d.obj c).outside (clampToRange (d.obj t) v) = false
  | .operation (.set req) =>
    ∀ j, d.find req.ono = some j → (d.obj j).kind.isRanged = true → req.isString = false →
      req.num.isNaN = false
  | .other _ => True

end Action

/-- The device where constructors get ordered bounds and controllers send numbers. -/
def plain (K : Kconfig) : Machine (Device K) (Action K) := (control K).restrict Action.Plain

/-- The same where every step fits the ranges. -/
def tame (K : Kconfig) : Machine (Device K) (Action K) :=
  (control K).restrict fun d a => a.Plain d ∧ a.Fits d

/-! ### One object -/

section One

variable {o : Obj} {v : F64}

theorem clampd_inRange {lo hi : F64} (h : lo.le hi = true) (hv : v.isNaN = false) :
    lo.le (clampd v lo hi) = true ∧ (clampd v lo hi).le hi = true := by
  obtain ⟨hlo, hhi, -⟩ := Ieee.Binary.le_iff.1 h
  unfold clampd
  split
  · exact ⟨Ieee.Binary.le_refl_of_number hlo, h⟩
  next hlow =>
    split
    · exact ⟨h, Ieee.Binary.le_refl_of_number hhi⟩
    next hhigh =>
      exact ⟨Ieee.Binary.le_of_not_lt hlo hv (Bool.eq_false_iff.2 hlow),
        Ieee.Binary.le_of_not_lt hv hhi (Bool.eq_false_iff.2 hhigh)⟩

theorem setup_of_range {call : Create} {lo hi v : F64} (h : call.range = some (lo, hi, v)) :
    (call.setup o).numMin = lo ∧ (call.setup o).numMax = hi ∧
      (call.setup o).num = clampd v lo hi := by
  cases call with
  | gain | float | frequency | delay | uint16 | uint32 | int32 | levelSensor | temperature =>
    simp only [Create.range, Option.some.injEq, Prod.mk.injEq] at h
    obtain ⟨rfl, rfl, rfl⟩ := h
    exact ⟨rfl, rfl, rfl⟩
  | _ => cases h

theorem range_of_isRanged {call : Create} (h : call.kind.isRanged = true) :
    ∃ lo hi v, call.range = some (lo, hi, v) := by
  cases call with
  | gain | float | frequency | delay | uint16 | uint32 | int32 | levelSensor | temperature =>
    exact ⟨_, _, _, rfl⟩
  | _ => cases h

/-- A constructor starts in the range it is given. -/
theorem setup_inRange {call : Create} (hplain : ∀ r ∈ call.range, r.1.le r.2.1 = true)
    (hfits : ∀ r ∈ call.range, r.2.2.isNaN = false) (hk : o.kind = call.kind) :
    (call.setup o).scalar.InRange := by
  intro hr
  have hkind : (call.setup o).kind = call.kind := (call.setup_kind o).trans hk
  have hranged : (call.setup o).kind.isRanged = true := hr
  obtain ⟨lo, hi, v, hrange⟩ := range_of_isRanged (hkind ▸ hranged)
  obtain ⟨hmin, hmax, hnum⟩ := setup_of_range (o := o) hrange
  have hin := clampd_inRange (hplain _ hrange) (hfits _ hrange)
  rw [← hnum] at hin
  change (call.setup o).numMin.le (call.setup o).num = true ∧
    (call.setup o).num.le (call.setup o).numMax = true
  rw [hmin, hmax]
  exact hin

/-- A proxy starts in the range it is given. -/
theorem initProxy_inRange {k : Kind} (hk : k ∈ [Kind.gain, .mute, .boolean])
    (h : o.scalar = .blank k) : (initProxy o).scalar.InRange := by
  have hkind : o.kind = k := congrArg Scalar.kind h
  simp only [List.mem_cons, List.not_mem_nil, or_false] at hk
  rcases hk with rfl | rfl | rfl
  · have hscalar : (initProxy o).scalar = ⟨.gain, .zero, .ofInt (-200), .ofNat 200, o.swCount⟩ := by
      simp [initProxy, hkind, Obj.scalar]
    have hbounds : (.ofInt (-200) : F64).le .zero = true ∧ (.zero : F64).le (.ofNat 200) = true := by
      decide
    rw [hscalar]
    exact fun _ => hbounds
  · intro hr
    simp [initProxy, hkind, Obj.scalar, Kind.isRanged] at hr
  · intro hr
    simp [initProxy, hkind, Obj.scalar, Kind.isRanged] at hr

/-- A recall stores a number where it is given one. -/
theorem isNaN_clampToRange (hv : v.isNaN = false) : (clampToRange o v).isNaN = false := by
  unfold clampToRange
  split
  next hlt =>
    have hle := Ieee.Binary.le_clamp (Ieee.Binary.le_of_lt hlt) hv
    exact (Ieee.Binary.le_iff.1 hle.1).2.1
  · exact hv

variable (h : o.scalar.InRange) (hr : o.kind.isRanged = true)
include h hr

/-- A number that is not outside the bounds lies between them. -/
theorem inRange_of_inside (hv : v.isNaN = false) (hin : o.outside v = false) :
    o.numMin.le v = true ∧ v.le o.numMax = true := by
  obtain ⟨hmin, hmax⟩ := h hr
  rw [Obj.outside, Bool.or_eq_false_iff] at hin
  exact ⟨Ieee.Binary.le_of_not_lt (Ieee.Binary.le_iff.1 hmin).1 hv hin.1,
    Ieee.Binary.le_of_not_lt hv (Ieee.Binary.le_iff.1 hmax).2.1 hin.2⟩

theorem clampSet_inRange (hv : v.isNaN = false) :
    o.numMin.le (clampSet o v) = true ∧ (clampSet o v).le o.numMax = true := by
  have hle := Ieee.Binary.le_trans_of (h hr).1 (h hr).2
  cases hk : o.kind with
  | gain | delay | frequency | float32 | int32 | uint16 | uint32 | levelSensor | temperature =>
    simp only [clampSet, hk]
    exact Ieee.Binary.le_clamp hle hv
  | _ => simp [hk, Kind.isRanged] at hr

theorem clampToRange_inRange (hv : v.isNaN = false)
    (hb : o.numMin.lt o.numMax = true ∨ o.outside v = false) :
    o.numMin.le (clampToRange o v) = true ∧ (clampToRange o v).le o.numMax = true := by
  rcases hb with hlt | hin
  · simp only [clampToRange, hlt, if_true]
    exact Ieee.Binary.le_clamp (Ieee.Binary.le_of_lt hlt) hv
  · rw [clampToRange_of_inside hin]
    exact inRange_of_inside h hr hv hin

end One

/-! ### Runs -/

section Runs

variable {d : Device K}

/-- A value that a command writes is in the range of the object. -/
theorem command_inRange (hall : d.All Scalar.InRange) {conn : ℕ} {cmd : Command} {rd : Reader}
    (hplain : (Action.operation (.command conn cmd rd) : Action K).Plain d)
    (hfits : (Action.operation (.command conn cmd rd) : Action K).Fits d) {i : ObjRef} {v : F64}
    (hi : i < d.objects.length) (hr : (d.obj i).kind.isRanged = true)
    (hw : (i, v) ∈ (d.commandEffects conn cmd rd).nums) :
    (d.obj i).numMin.le v = true ∧ v.le (d.obj i).numMax = true := by
  rcases mem_commandEffects hw with ⟨j, x, hset, hw⟩ | ⟨t, x, hrecall, hw⟩
  · have hx := hplain.1 j x hset
    rcases List.mem_cons.1 hw with heq | hcopy
    · -- the setter checks its own object
      obtain ⟨rfl, rfl⟩ := Prod.mk.inj heq
      exact inRange_of_inside (hall i hi) hr hx (outside_of_setting hr hset.2.2.2.2)
    · obtain ⟨c, hc, heq⟩ := List.mem_map.1 hcopy
      obtain ⟨rfl, rfl⟩ := Prod.mk.inj heq
      exact inRange_of_inside (hall c hi) hr hx (hfits.1 j x hset c hc hr)
  · have hx := hplain.2 t x hrecall
    obtain ⟨hown, hcopies⟩ := hfits.2 t x hrecall
    rcases List.mem_cons.1 hw with heq | hcopy
    · obtain ⟨rfl, rfl⟩ := Prod.mk.inj heq
      exact clampToRange_inRange (hall i hi) hr hx (hown hr)
    · obtain ⟨c, hc, heq⟩ := List.mem_map.1 hcopy
      obtain ⟨rfl, rfl⟩ := Prod.mk.inj heq
      exact inRange_of_inside (hall c hi) hr (isNaN_clampToRange hx) (hcopies c hc hr)

theorem action_inRange {a : Action K} (ha : a.Legal d) (hplain : a.Plain d) (hfits : a.Fits d)
    (hall : d.All Scalar.InRange) : (a.run d).All Scalar.InRange := by
  refine (action_changes ha).all hall (fun i hi v hlast hr => ?_) fun k p f hB o ho => ?_
  · have hw := mem_of_lastWrite hlast
    cases a with
    | operation op =>
      cases op with
      | command conn cmd rd => exact command_inRange hall hplain hfits hi hr hw
      | set req =>
        obtain ⟨j, hf, hstring, heq⟩ := mem_requestEffects hw
        obtain ⟨rfl, rfl⟩ := Prod.mk.inj heq
        exact clampSet_inRange (hall i hi) hr (hfits i hf hr hstring)
    | create call parent role => exact absurd hw List.not_mem_nil
    | other d' => exact absurd hw List.not_mem_nil
  · cases a with
    | create call parent role =>
      obtain ⟨hk, -, rfl⟩ := hB
      exact setup_inRange hplain hfits ((congrArg Scalar.kind ho).trans hk)
    | operation op =>
      obtain ⟨hk, -, rfl⟩ := hB
      exact initProxy_inRange hk ho
    | other d' => exact hB.elim

/-- **Values stay in range** in every run of steps that fit. -/
theorem inRange_of_fits (h : (tame K).Reach d) :
    ∀ i < d.objects.length, (d.obj i).kind.isRanged = true →
      (d.obj i).numMin.le (d.obj i).num = true ∧ (d.obj i).num.le (d.obj i).numMax = true := by
  have hall : d.All Scalar.InRange := by
    refine h.invariant (fun _ h => all_start h ?_) fun d a _ hall hok =>
      action_inRange hok.1 hok.2.1 hok.2.2 hall
    intro k hk hr
    simp only [List.mem_cons, List.not_mem_nil, or_false] at hk
    rcases hk with rfl | rfl | rfl <;> cases hr
  exact hall

/-- A command that is neither a setter nor a recall. -/
theorem plain_fits_of_index {conn : ℕ} {cmd : Command} {rd : Reader} (hset : cmd.index ≠ 2)
    (hrecall : cmd.index ≠ 26) : (Action.operation (.command conn cmd rd) : Action K).Plain d ∧
      (Action.operation (.command conn cmd rd) : Action K).Fits d := by
  have hnoSet (j : ObjRef) (v : F64) : ¬d.Sets conn cmd rd j v := fun h => hset h.2.2.2.1
  have hnoRecall (t : ObjRef) (v : F64) : ¬d.RecallsTo conn cmd rd t v := by
    rintro ⟨b, -, -, -, -, hindex, -⟩
    exact hrecall hindex
  exact ⟨⟨fun j v h => absurd h (hnoSet j v), fun t v h => absurd h (hnoRecall t v)⟩,
    fun j v h => absurd h (hnoSet j v), fun t v h => absurd h (hnoRecall t v)⟩

end Runs

namespace Sample

/-- A gain from -60 dB to 12 dB, object 4 with the number 4097, in the only group of a grouper; the
proxy of the group is object 5 with the number 4098. -/
def gainSteps : List (Action .default) :=
  [.create (.grouper .gain) none (ascii "gains"),
    .create (.gain ⟨0xC2700000⟩ ⟨0x41400000⟩ .zero) none (ascii "gain"),
    sent 4096 3 1 1 [0, 3, 0x61, 0x6C, 0x6C], sent 4096 3 5 1 [0, 0, 0, 0, 0, 0, 0x10, 1, 1],
    sent 4096 3 10 2 [0, 1, 0, 1, 1]]

/-- The sample device with the group. -/
def gains : Device .default := gainSteps.foldl Action.run start

theorem reach_gains : (tame .default).Reach gains := by
  have hstart : (tame .default).Reach start := .init ⟨config, net, (Option.some_get _).symm⟩
  have hgrouper (d : Device .default) (role : Bytes) :
      (tame .default).ok d (.create (.grouper .gain) none role) :=
    ⟨fun _ h => (nomatch h), fun _ h => (nomatch h), fun _ h => (nomatch h)⟩
  have hgain (d : Device .default) (role : Bytes) :
      (tame .default).ok d (.create (.gain ⟨0xC2700000⟩ ⟨0x41400000⟩ .zero) none role) := by
    refine ⟨fun _ h => (nomatch h), fun r hr => ?_, fun r hr => ?_⟩
    all_goals
      obtain rfl := Option.some.inj hr
      decide
  have hcommand (d : Device .default) (n : UInt32) (l i : UInt16) (k : UInt8) (ps : Bytes)
      (hset : i ≠ 2) (hrecall : i ≠ 26) : (tame .default).ok d (sent n l i k ps) :=
    ⟨trivial, plain_fits_of_index hset hrecall⟩
  have hrun : (tame .default).Run start gainSteps gains :=
    .cons (hgrouper _ _) (.cons (hgain _ _)
      (.cons (hcommand _ _ _ _ _ _ (by decide) (by decide))
        (.cons (hcommand _ _ _ _ _ _ (by decide) (by decide))
          (.cons (hcommand _ _ _ _ _ _ (by decide) (by decide)) (.nil _)))))
  exact hstart.run hrun

/-- A client sets the proxy. -/
def setProxy (v : Bytes) : Action .default := sent 4098 4 2 1 v

theorem setProxy_sets {bs : Bytes} {v : F64} {j : ObjRef} {x : F64}
    (hv : setting (gains.obj 5) (Reader.ofBytes bs) = some v)
    (h : gains.Sets 0 ⟨1, 4098, 4, 2, 1, bs⟩ (Reader.ofBytes bs) j x) : j = 5 ∧ x = v := by
  have hfind : gains.find 4098 = some 5 := by decide
  obtain ⟨hf, -, -, -, hset⟩ := h
  obtain rfl := Option.some.inj (hf.symm.trans hfind)
  exact ⟨rfl, Option.some.inj (hset.symm.trans hv)⟩

theorem setProxy_recalls {bs : Bytes} {t : ObjRef} {x : F64} :
    ¬gains.RecallsTo 0 ⟨1, 4098, 4, 2, 1, bs⟩ (Reader.ofBytes bs) t x := by
  rintro ⟨b, -, -, -, -, hindex, -⟩
  have hne : (2 : UInt16) ≠ 26 := by decide
  exact hne hindex

/-- A setting of 6 dB fits the gain. -/
theorem inRange_setProxy : (((setProxy [0x40, 0xC0, 0, 0]).run gains).obj 4).num = .ofNat 6 ∧
    (.ofNat 6 : F64).le (((setProxy [0x40, 0xC0, 0, 0]).run gains).obj 4).numMax = true := by
  have hnum : (((setProxy [0x40, 0xC0, 0, 0]).run gains).obj 4).num = .ofNat 6 := by decide
  have hv : setting (gains.obj 5) (Reader.ofBytes [0x40, 0xC0, 0, 0]) = some (.ofNat 6) := by decide
  have hok : (tame .default).ok gains (setProxy [0x40, 0xC0, 0, 0]) := by
    refine ⟨trivial, ⟨fun j v h => ?_, fun t v h => absurd h setProxy_recalls⟩, fun j v h => ?_,
      fun t v h => absurd h setProxy_recalls⟩
    · rw [(setProxy_sets hv h).2]
      decide
    · obtain ⟨rfl, rfl⟩ := setProxy_sets hv h
      have hcopies : gains.copies 5 = [4] := by decide
      intro c hc _
      obtain rfl := List.mem_singleton.1 (hcopies ▸ hc)
      decide
  have h := inRange_of_fits (reach_gains.step hok) 4 (by decide) (by decide)
  exact ⟨hnum, hnum ▸ h.2⟩

/-- A setting of 100 dB fits the proxy, and goes to the gain. -/
theorem not_inRange_setProxy : (plain .default).Reach ((setProxy [0x42, 0xC8, 0, 0]).run gains) ∧
    (((setProxy [0x42, 0xC8, 0, 0]).run gains).obj 4).kind.isRanged = true ∧
      (((setProxy [0x42, 0xC8, 0, 0]).run gains).obj 4).num.le
        (((setProxy [0x42, 0xC8, 0, 0]).run gains).obj 4).numMax = false := by
  have hgains : (plain .default).Reach gains := reach_gains.restrict_mono fun _ _ h => h.1
  have hv : setting (gains.obj 5) (Reader.ofBytes [0x42, 0xC8, 0, 0]) = some (.ofNat 100) := by
    decide
  have hok : (plain .default).ok gains (setProxy [0x42, 0xC8, 0, 0]) := by
    refine ⟨trivial, fun j v h => ?_, fun t v h => absurd h setProxy_recalls⟩
    rw [(setProxy_sets hv h).2]
    decide
  have hreach := hgains.step hok
  refine ⟨?_, by decide, by decide⟩
  exact hreach

end Sample

end Aes70
