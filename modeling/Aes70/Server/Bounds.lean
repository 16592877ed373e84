import Aes70.Router.Bounds
import Aes70.Server.Range

/-!
# DSP parameters within their bounds

Of the setters of a DSP class some check the bounds that the getters advertise, and some do not; a
set request of the application is stored as it is. A parameter that is within its bounds stays there
as long as no unchecked write leaves them.

* `Action.Numeric` : controllers send numbers to the object.
* `Action.Bounded` : what a step must not write for the parameters to stay within their bounds.
* `inBounds_of_bounded` : then they do, in every run, from every device.
-/

namespace Aes70

open Device Handler

variable {K : Kconfig}

namespace Action

/-- The parameters that a command writes to object `i` are numbers. -/
def Numeric (i : ObjRef) (d : Device K) : Action K → Prop
  | .operation (.command conn cmd rd) => ∀ w, d.Writes conn cmd rd i w → w.value.isNaN = false
  | _ => True

/-- A setter without a check, and a set request, are given a value within the bounds. -/
def Bounded (i : ObjRef) (d : Device K) : Action K → Prop
  | .operation (.command conn cmd rd) => cmd.index ∈ (d.obj i).kind.uncheckedSetters →
    ∀ w, d.Writes conn cmd rd i w → (d.obj i).priv.Admits w
  | .operation (.set req) => d.find req.ono = some i →
    (d.obj i).priv.Admits ⟨req.sel, req.num, req.num2⟩
  | _ => True

end Action

section Runs

variable {d d' : Device K} {i : ObjRef}

/-- A parameter write of a step is one that the object admits. -/
theorem param_admits {a : Action K} (hnumeric : a.Numeric i d) (hbounded : a.Bounded i d)
    (hin : (d.obj i).priv.InBounds) {w : ParamWrite} (hw : (a.effects d).param = some (i, w)) :
    (d.obj i).priv.Admits w := by
  cases a with
  | operation op =>
    cases op with
    | command conn cmd rd =>
      have hwrites := param_commandEffects hw
      by_cases hidx : cmd.index ∈ (d.obj i).kind.uncheckedSetters
      · exact hbounded hidx w hwrites
      · exact setting_admits hin hwrites.2.2.2.2 hidx (hnumeric w hwrites)
    | set req =>
      obtain ⟨hf, rfl⟩ := param_requestEffects hw
      exact hbounded hf
  | create call parent role => cases hw
  | other d' => cases hw

/-- **A step** keeps the parameters of an object within their bounds. -/
theorem action_inBounds {a : Action K} (ha : a.Legal d) (hnumeric : a.Numeric i d)
    (hbounded : a.Bounded i d) (hi : i < d.objects.length)
    (hdsp : dspIsDspKind (d.obj i).kind = true) (hin : (d.obj i).priv.InBounds) :
    ((a.run d).obj i).priv.InBounds := by
  rcases (action_changes ha).oldPriv hi hdsp with hpriv | hpriv
  · rw [hpriv]
    unfold Effects.priv
    split
    next j w hw =>
      split_ifs with hij
      · subst hij
        exact (inBounds_write_iff hin).2 (param_admits hnumeric hbounded hin hw)
      · exact hin
    · exact hin
  · rw [hpriv]
    exact hin

/-- **DSP parameters stay within their bounds** in every run whose unchecked writes do. -/
theorem inBounds_of_bounded (hi : i < d.objects.length)
    (hdsp : dspIsDspKind (d.obj i).kind = true) (hin : ∀ q ∈ (d.obj i).priv.parameters, q.gauge.Inside)
    {as : List (Action K)}
    (hrun : ((control K).restrict fun d a => a.Numeric i d ∧ a.Bounded i d).Run d as d') :
    ∀ q ∈ (d'.obj i).priv.parameters, q.gauge.Inside := by
  let I (d : Device K) : Prop := i < d.objects.length ∧ dspIsDspKind (d.obj i).kind = true ∧
    (d.obj i).priv.InBounds
  have hinv : I d' := by
    refine hrun.invariant (I := I) ⟨hi, hdsp, hin⟩ fun d a hd hok => ?_
    obtain ⟨hi, hdsp, hin⟩ := hd
    obtain ⟨ha, hnumeric, hbounded⟩ := hok
    obtain ⟨hlt, -, hkind⟩ := (action_changes ha).old hi
    exact ⟨hlt, by rw [← hdsp, ← hkind]; rfl, action_inBounds ha hnumeric hbounded hi hdsp hin⟩
  exact hinv.2.2

end Runs

namespace Sample

/-- SetHoldTime of the compressor. -/
def setHold (v : Bytes) : Action .default := sent 4096 4 18 1 v

theorem setHold_writes {bs : Bytes} {i : ObjRef} {x w : ParamWrite}
    (hv : dspSetting (compressor.obj 3) 18 (Reader.ofBytes bs) = some x)
    (h : compressor.Writes 0 ⟨1, 4096, 4, 18, 1, bs⟩ (Reader.ofBytes bs) i w) : i = 3 ∧ w = x := by
  have hfind : compressor.find 4096 = some 3 := by decide
  obtain ⟨hf, -, -, -, hset⟩ := h
  obtain rfl := Option.some.inj (hf.symm.trans hfind)
  exact ⟨rfl, Option.some.inj (hset.symm.trans hv)⟩

/-- A hold time of 2 s is within the bounds. -/
theorem inBounds_setHold :
    (((setHold [0x40, 0, 0, 0]).run compressor).obj 3).priv.InBounds := by
  have hv : dspSetting (compressor.obj 3) 18 (Reader.ofBytes [0x40, 0, 0, 0]) =
      some ⟨.dynHold, .ofNat 2, .zero⟩ := by decide
  have hok : ((control .default).restrict fun d a => a.Numeric 3 d ∧ a.Bounded 3 d).ok compressor
      (setHold [0x40, 0, 0, 0]) := by
    refine ⟨trivial, ?_, ?_⟩
    · intro w h
      rw [(setHold_writes hv h).2]
      decide
    · intro _ w h
      rw [(setHold_writes hv h).2]
      decide
  exact inBounds_of_bounded (by decide) (by decide) (by decide) (.cons hok (.nil _))

/-- A hold time of 100 s is stored too, where the getter says that 5 s is the maximum. -/
theorem not_inBounds_setHold : (server .default).Reach compressor ∧
    (compressor.obj 3).priv.InBounds ∧
      ((control .default).restrict (Action.Numeric 3)).Run compressor [setHold [0x42, 0xC8, 0, 0]]
        ((setHold [0x42, 0xC8, 0, 0]).run compressor) ∧
      ¬(((setHold [0x42, 0xC8, 0, 0]).run compressor).obj 3).priv.InBounds := by
  have hv : dspSetting (compressor.obj 3) 18 (Reader.ofBytes [0x42, 0xC8, 0, 0]) =
      some ⟨.dynHold, .ofNat 100, .zero⟩ := by decide
  have hok : ((control .default).restrict (Action.Numeric 3)).ok compressor
      (setHold [0x42, 0xC8, 0, 0]) := by
    refine ⟨trivial, fun w h => ?_⟩
    rw [(setHold_writes hv h).2]
    decide
  exact ⟨reach_compressor, by decide, .cons hok (.nil _), by decide⟩

end Sample

end Aes70
