import Aes70.Server.Values
import Aes70.Server.Getters

/-!
# Telemetry

A level or temperature sensor reports a reading, OcaDynamics its gain and whether it is triggered.
These values come from the application: a controller reads them, and no command of a controller
changes one, neither to the object itself nor through groups or recalls.

* `Obj.reading`, `Obj.dynamic` : the values that are reported.
* `sensor_commandEffects`, `param_reports` : what a command writes is none of them.
* `telemetry_unforged` : they stay what they are in every run without a set request.
-/

namespace Aes70

open Device

variable {K : Kconfig}

/-! ### What is reported -/

/-- The classes of sensors. -/
def Kind.isSensor : Kind → Bool
  | .levelSensor | .temperature => true
  | _ => false

/-- The reading of a sensor and its state. -/
def Obj.reading (o : Obj) : Option (F64 × UInt8) :=
  if o.kind.isSensor then some (o.num, o.readingState) else none

/-- DynamicGain and Triggered of OcaDynamics. -/
def Obj.dynamic (o : Obj) : Option (F32 × Bool) :=
  match o.kind, o.priv with
  | .dynamics, .dynamics s => some (s.dynamicGain, s.triggered)
  | _, _ => none

/-- The selectors of what OcaDynamics reports. -/
def Sel.reports (sel : Sel) : Prop := sel = .dynDynamicGain ∨ sel = .dynTriggered

/-- The step is a set request of the application. -/
def Action.IsRequest (a : Action K) : Prop := ∃ req, a = .operation (.set req)

/-! ### What a command writes -/

section Commands

variable {d : Device K} {conn : ℕ} {cmd : Command} {rd : Reader} {t : ObjRef} {v : F64}

theorem setting_sensor {o : Obj} (hk : o.kind.isSensor = true) (rd : Reader) :
    setting o rd = none := by
  cases ho : o.kind with
  | levelSensor | temperature => simp only [setting, ho]
  | _ => simp [ho, Kind.isSensor] at hk

theorem isParamKind_sensor {k : Kind} (hk : k.isSensor = true) : isParamKind k = false := by
  cases k with
  | levelSensor | temperature => rfl
  | _ => cases hk

/-- A commit stores into objects of one class. -/
theorem kind_commitWrites {w : ObjRef × F64} (h : w ∈ d.commitWrites t v) :
    (d.obj w.1).kind = (d.obj t).kind := by
  rcases List.mem_cons.1 h with rfl | h
  · rfl
  · obtain ⟨c, hc, rfl⟩ := List.mem_map.1 h
    unfold copies at hc
    split_ifs at hc
    · exact (mem_fanTargets hc).2.1
    · exact absurd hc List.not_mem_nil

/-- **A command writes no reading**: sensors have no setter, are in no snapshot and in no group of
another class. -/
theorem sensor_commandEffects {w : ObjRef × F64} (h : w ∈ (d.commandEffects conn cmd rd).nums) :
    (d.obj w.1).kind.isSensor = false := by
  refine Bool.eq_false_iff.2 fun hsensor => ?_
  -- a value is written by its setter or by a recall
  rcases mem_commandEffects h with ⟨j, v, hsets, hw⟩ | ⟨t, v, hrecall, hw⟩
  · obtain ⟨-, -, -, -, hset⟩ := hsets
    rw [kind_commitWrites hw] at hsensor
    rw [setting_sensor hsensor] at hset
    cases hset
  · obtain ⟨b, -, -, -, -, -, es, truncated, ono, p, -, -, htarget⟩ := hrecall
    rw [kind_commitWrites hw] at hsensor
    have hparam := (recallTarget_some htarget).2.2
    rw [isParamKind_sensor hsensor] at hparam
    cases hparam

/-- No method writes what OcaDynamics reports. -/
theorem setting_reports {s : DynState} {idx : UInt16} {w : ParamWrite}
    (h : s.setting idx rd = some w) : ¬w.sel.reports := by
  unfold DynState.setting at h
  split at h
  all_goals first
    | cases h
    | obtain ⟨_, -, rfl⟩ := acceptedWrite_some h
      simp [Sel.reports]

/-- A write with another selector leaves it alone. -/
theorem dynamic_write {o : Obj} {w : ParamWrite} (h : ¬w.sel.reports) :
    ({ o with priv := o.priv.write w } : Obj).dynamic = o.dynamic := by
  obtain ⟨sel, v, ref⟩ := w
  unfold Obj.dynamic
  cases o.kind <;> try rfl
  cases o.priv <;> try rfl
  cases sel <;> first | rfl | exact absurd (.inl rfl) h | exact absurd (.inr rfl) h

/-- **A command writes nothing that OcaDynamics reports.** -/
theorem param_reports {w : ParamWrite} (h : (d.commandEffects conn cmd rd).param = some (t, w))
    (hk : (d.obj t).kind = .dynamics) : ¬w.sel.reports := by
  obtain ⟨-, -, -, -, hset⟩ := param_commandEffects h
  unfold dspSetting at hset
  split at hset
  next s _ _ => exact setting_reports hset
  case h_6 => cases hset
  all_goals
    next hkind _ =>
    rw [hkind] at hk
    cases hk

end Commands

/-! ### Runs -/

section Runs

variable {d d' : Device K} {t : ObjRef}

/-- A step that is no set request stores no reading. -/
theorem lastWrite_sensor {a : Action K} (hreq : ¬a.IsRequest)
    (hk : (d.obj t).kind.isSensor = true) : lastWrite (a.effects d).nums t = none := by
  cases hlast : lastWrite (a.effects d).nums t with
  | none => rfl
  | some v =>
    have hmem := mem_of_lastWrite hlast
    cases a with
    | operation op =>
      cases op with
      | command conn cmd rd =>
        have hno := sensor_commandEffects hmem
        rw [hk] at hno
        cases hno
      | set req => exact absurd ⟨req, rfl⟩ hreq
    | create | other => exact absurd hmem List.not_mem_nil

/-- A step that is no set request leaves what OcaDynamics reports alone. -/
theorem dynamic_effects {a : Action K} (hreq : ¬a.IsRequest)
    (hk : (d.obj t).kind = .dynamics) :
    ({ d.obj t with priv := (a.effects d).priv t (d.obj t).priv } : Obj).dynamic =
      (d.obj t).dynamic := by
  unfold Effects.priv
  split
  next j w hparam =>
    split_ifs with hj
    · subst hj
      cases a with
      | operation op =>
        cases op with
        | command conn cmd rd => exact dynamic_write (param_reports hparam hk)
        | set req => exact absurd ⟨req, rfl⟩ hreq
      | create | other => cases hparam
    · rfl
  · rfl

/-- **A step** that is no set request of the application changes nothing that is reported. -/
theorem action_telemetry {a : Action K} (ha : a.Legal d) (hreq : ¬a.IsRequest)
    (ht : t < d.objects.length) : ((a.run d).obj t).reading = (d.obj t).reading ∧
      ((a.run d).obj t).dynamic = (d.obj t).dynamic := by
  have hchanges := action_changes ha
  obtain ⟨-, -, hkind⟩ := hchanges.old ht
  constructor
  · have hstate : ((a.run d).obj t).readingState = (d.obj t).readingState :=
      hchanges.oldFrame (p := Obj.readingState) ht (fun _ => by rfl) (fun _ _ => by rfl)
        fun _ _ => by rfl
    unfold Obj.reading
    rw [hkind]
    split_ifs with hsensor
    · have hnum : ((a.run d).obj t).num = (d.obj t).num := by
        rcases hchanges.oldNum ht with h | h
        · rw [h, lastWrite_sensor hreq hsensor]
          rfl
        · exact h
      rw [hnum, hstate]
    · rfl
  · by_cases hk : (d.obj t).kind = .dynamics
    · have hdsp : dspIsDspKind (d.obj t).kind = true := by rw [hk]; rfl
      have hpriv (p : Priv) (h : ((a.run d).obj t).priv = p) :
          ((a.run d).obj t).dynamic = ({ d.obj t with priv := p } : Obj).dynamic := by
        unfold Obj.dynamic
        rw [hkind, h]
      rcases hchanges.oldPriv ht hdsp with h | h
      · rw [hpriv _ h, dynamic_effects hreq hk]
      · rw [hpriv _ h]
    · have hnone (o : Obj) (h : o.kind ≠ .dynamics) : o.dynamic = none := by
        unfold Obj.dynamic
        split
        next h' _ => exact absurd h' h
        · rfl
      rw [hnone _ hk, hnone _ (hkind ▸ hk)]

/-- **Telemetry is not forged**: in every run in which the application makes no set request,
whatever controllers send, the readings of all sensors and what OcaDynamics reports stay as they
are. -/
theorem telemetry_unforged {as : List (Action K)}
    (hrun : ((control K).restrict fun _ a => ¬a.IsRequest).Run d as d') :
    ∀ t < d.objects.length, (d'.obj t).kind = (d.obj t).kind ∧
      (d'.obj t).reading = (d.obj t).reading ∧ (d'.obj t).dynamic = (d.obj t).dynamic := by
  let I (e : Device K) : Prop := ∀ t < d.objects.length, t < e.objects.length ∧
    (e.obj t).kind = (d.obj t).kind ∧ (e.obj t).reading = (d.obj t).reading ∧
      (e.obj t).dynamic = (d.obj t).dynamic
  have hinv : I d' := by
    refine hrun.invariant (I := I) (fun t ht => ⟨ht, rfl, rfl, rfl⟩) ?_
    intro e a he hok t ht
    obtain ⟨hlt, hkind, hreading, hdynamic⟩ := he t ht
    obtain ⟨hlt', -, hkind'⟩ := (action_changes hok.1).old hlt
    obtain ⟨hreading', hdynamic'⟩ := action_telemetry hok.1 hok.2 hlt
    exact ⟨hlt', hkind'.trans hkind, hreading'.trans hreading, hdynamic'.trans hdynamic⟩
  intro t ht
  exact (hinv t ht).2

end Runs

namespace Sample

/-- A level sensor, object 3 with the number 4096, and a compressor, object 4. -/
def metered : Device .default :=
  after [.create (.levelSensor (.ofInt (-60)) .zero) none (ascii "meter"),
    .create (.dynamics 1) none (ascii "compressor")]

/-- A recall that names the sensor, a setter that it does not have, and SetRatio of the
compressor. -/
def forgery : List (Action .default) :=
  [sent 100 3 26 1 [0, 0, 0, 14, 0, 1, 0, 0, 0x10, 0, 0xBF, 0xF0, 0, 0, 0, 0, 0, 0],
    sent 4096 4 2 1 [0xBF, 0x80, 0, 0], sent 4097 4 6 1 [0x40, 0, 0, 0]]

/-- The compressor has a new ratio; the reading and the gain reduction are what they were. -/
theorem telemetry_forgery :
    ((forgery.foldl Action.run metered).obj 4).priv ≠ (metered.obj 4).priv ∧
      ((forgery.foldl Action.run metered).obj 3).reading = (metered.obj 3).reading ∧
        ((forgery.foldl Action.run metered).obj 4).dynamic = (metered.obj 4).dynamic := by
  have hok (e : Device .default) (target : UInt32) (level index : UInt16) (bs : Bytes) :
      ((control .default).restrict fun _ a => ¬a.IsRequest).ok e
        (sent target level index 1 bs) := by
    refine ⟨trivial, ?_⟩
    rintro ⟨req, h⟩
    cases h
  have hrun : ((control .default).restrict fun _ a => ¬a.IsRequest).Run metered forgery
      (forgery.foldl Action.run metered) :=
    .cons (hok ..) (.cons (hok ..) (.cons (hok ..) (.nil _)))
  have hsensor := telemetry_unforged hrun 3 (by decide)
  have hcompressor := telemetry_unforged hrun 4 (by decide)
  exact ⟨by decide, hsensor.2.1, hcompressor.2.2⟩

end Sample

end Aes70
