import Aes70.Class.Basic
import Aes70.Class.Dsp
import Aes70.Class.Grouper
import Aes70.Class.Matrix
import Aes70.Class.Manager

/-!
# Method dispatch and access control

`aes70_object_dispatch` and `aes70_method_is_write`: a method is named by the level of the class
that defines it and an index; the level selects the handler, and the gate in front of it stops
writes to secured and locked objects.

* `levelHandlers` : the handlers of a class, one for each level of inheritance.
* `methodIsWrite` : the hand-kept list of state-changing methods.
* `Device.gate` : the status the gate answers with, `none` when it lets the call through.
-/

namespace Aes70

variable {K : Kconfig}

/-- `aes70_method_is_write`. -/
def methodIsWrite (kind : Kind) (level index : UInt16) : Bool :=
  if level = 1 then index = 3 ∨ index = 4 ∨ index = 6
  else if level = 2 then index = 2 ∨ index = 9
  else match kind with
    | .gain | .mute | .polarity | .switch | .delay | .frequency | .identify =>
      level = 4 ∧ index = 2
    | .boolean | .int32 | .uint16 | .uint32 | .float32 | .string => level = 5 ∧ index = 2
    | .dynamics => level = 4 ∧ 4 ≤ index ∧ index ≤ 26 ∧ index % 2 = 0
    | .filterClassical | .filterParametric => level = 4 ∧ index ∈ [2, 4, 6, 8, 10]
    | .panBalance => level = 4 ∧ index ∈ [2, 4]
    | .signalGen => level = 4 ∧ index ∈ [2, 4, 6, 8, 10, 12, 14]
    | .grouper => level = 3 ∧ index ∈ [1, 2, 5, 6, 10, 13, 15]
    | .matrix => level = 3 ∧ index ∈ [2, 4, 6, 8, 10, 12, 14, 15, 16]
    | .block => level = 3 ∧ index = 26
    | _ => false

/-- `level_handlers`: `none` for a level without methods. -/
def levelHandlers (kind : Kind) : List (Option (ObjRef → UInt16 → Handler K)) :=
  match kind with
  | .block => [some rootDispatch, some workerDispatch, some blockDispatch]
  | .grouper => [some rootDispatch, some agentDispatch, some grouperDispatch]
  | .matrix => [some rootDispatch, some workerDispatch, some matrixDispatch]
  | .gain | .frequency => [some rootDispatch, some workerDispatch, none, some gainDispatch]
  | .mute | .polarity => [some rootDispatch, some workerDispatch, none, some state2Dispatch]
  | .switch => [some rootDispatch, some workerDispatch, none, some switchDispatch]
  | .delay => [some rootDispatch, some workerDispatch, none, some delayDispatch]
  | .boolean | .int32 | .uint16 | .uint32 | .float32 | .string =>
    [some rootDispatch, some workerDispatch, none, none, some basicActuatorDispatch]
  | .levelSensor | .temperature =>
    [some rootDispatch, some workerDispatch, some sensorDispatch, some levelSensorDispatch]
  | .identify => [some rootDispatch, some workerDispatch, none, some identifyDispatch]
  | .dynamics => [some rootDispatch, some workerDispatch, none, some dynamicsDispatch]
  | .filterClassical => [some rootDispatch, some workerDispatch, none, some filterDispatch]
  | .filterParametric => [some rootDispatch, some workerDispatch, none, some peqDispatch]
  | .panBalance => [some rootDispatch, some workerDispatch, none, some panDispatch]
  | .signalGen => [some rootDispatch, some workerDispatch, none, some siggenDispatch]
  | .deviceManager => [some rootDispatch, none, some devmgrDispatch]
  | .subscriptionManager => [some rootDispatch, none, some submgrDispatch]

/-- The handler `aes70_object_dispatch` selects, `none` for BadMethod. -/
def handlerFor (kind : Kind) (level : UInt16) : Option (ObjRef → UInt16 → Handler K) :=
  if level < 1 ∨ UInt16.ofNat (classForKind kind).classId.length < level then none
  else ((levelHandlers kind).getD (level.toNat - 1) none)

namespace Device

/-- The session being dispatched is privileged. -/
def activePrivileged (d : Device K) : Bool :=
  match d.activeConn with
  | some c => ((d.conn? c).map Conn.privileged).getD false
  | none => false

/-- The gate of `aes70_object_dispatch`: the status it answers with instead of calling the
handler. -/
def gate (d : Device K) (i : ObjRef) (level index : UInt16) : Option Status :=
  let o := d.obj i
  if (o.secured || o.lockState != .none) && methodIsWrite o.kind level index then
    if o.secured && !d.activePrivileged then some .permissionDenied
    else if (o.lockState == .noWrite || o.lockState == .noReadWrite) &&
        d.activeConn != o.lockOwner then some .locked
    else none
  else none

end Device

/-- `aes70_object_dispatch`. -/
def objectDispatch (i : ObjRef) (level index : UInt16) : Handler K := Handler.look fun d =>
  match handlerFor (d.obj i).kind level with
  | none => .ret .badMethod
  | some h =>
    match d.gate i level index with
    | some st => .ret st
    | none => h i index

/-- The gate refuses, if it answers at all. -/
theorem gate_ne_ok {d : Device K} {i : ObjRef} {level index : UInt16} {st : Status}
    (h : d.gate i level index = some st) : st ≠ .ok := by
  unfold Device.gate at h
  dsimp only at h
  split_ifs at h <;> cases h <;> decide

/-- A call that succeeds is let through by the gate. -/
theorem gate_of_ok {i : ObjRef} {level index : UInt16} {c : Call K}
    (hok : (objectDispatch i level index c).1 = .ok) : c.dev.gate i level index = none := by
  unfold objectDispatch Handler.look at hok
  cases hh : handlerFor (K := K) (c.dev.obj i).kind level with
  | none =>
    simp only [hh] at hok
    cases hok
  | some h =>
    cases hg : c.dev.gate i level index with
    | none => rfl
    | some st =>
      simp only [hh, hg] at hok
      exact absurd hok (gate_ne_ok hg)

/-- A level that the class does not have. -/
theorem objectDispatch_of_none {i : ObjRef} {level index : UInt16} {c : Call K}
    (hh : handlerFor (K := K) (c.dev.obj i).kind level = none) :
    objectDispatch i level index c = (.badMethod, c) := by
  simp only [objectDispatch, Handler.look, hh, Handler.ret]

/-- A method that the gate stops. -/
theorem objectDispatch_of_stop {i : ObjRef} {level index : UInt16} {c : Call K} {st : Status}
    {h : ObjRef → UInt16 → Handler K} (hh : handlerFor (c.dev.obj i).kind level = some h)
    (hg : c.dev.gate i level index = some st) : objectDispatch i level index c = (st, c) := by
  simp only [objectDispatch, Handler.look, hh, hg, Handler.ret]

theorem objectDispatch_of_gate {d : Device K} {i : ObjRef} {level index : UInt16} {st : Status}
    (hg : d.gate i level index = some st) {c : Call K} (hc : c.dev = d) :
    (objectDispatch i level index c).2.dev = d := by
  subst hc
  cases hh : handlerFor (K := K) (c.dev.obj i).kind level with
  | none => rw [objectDispatch_of_none hh]
  | some h => rw [objectDispatch_of_stop hh hg]

theorem objectDispatch_of_handler {d : Device K} {i : ObjRef} {level index : UInt16}
    {h : ObjRef → UInt16 → Handler K} (hh : handlerFor (d.obj i).kind level = some h)
    (hg : d.gate i level index = none) {c : Call K} (hc : c.dev = d) :
    objectDispatch i level index c = h i index c := by
  subst hc
  simp only [objectDispatch, Handler.look, hh, hg]

/-! ### The handlers by name -/

/-- `HandlerOf kind level h`: the methods of that level of that class are handled by `h`. -/
inductive HandlerOf : Kind → UInt16 → (ObjRef → UInt16 → Handler K) → Prop
  | root (k : Kind) : HandlerOf k 1 rootDispatch
  | worker (k : Kind) (h : k ∉ [Kind.grouper, .deviceManager, .subscriptionManager]) :
    HandlerOf k 2 workerDispatch
  | agent : HandlerOf .grouper 2 agentDispatch
  | block : HandlerOf .block 3 blockDispatch
  | grouper : HandlerOf .grouper 3 grouperDispatch
  | matrix : HandlerOf .matrix 3 matrixDispatch
  | devmgr : HandlerOf .deviceManager 3 devmgrDispatch
  | submgr : HandlerOf .subscriptionManager 3 submgrDispatch
  | sensor (k : Kind) (h : k ∈ [Kind.levelSensor, .temperature]) : HandlerOf k 3 sensorDispatch
  | levelSensor (k : Kind) (h : k ∈ [Kind.levelSensor, .temperature]) :
    HandlerOf k 4 levelSensorDispatch
  | gain (k : Kind) (h : k ∈ [Kind.gain, .frequency]) : HandlerOf k 4 gainDispatch
  | state2 (k : Kind) (h : k ∈ [Kind.mute, .polarity]) : HandlerOf k 4 state2Dispatch
  | switch : HandlerOf .switch 4 switchDispatch
  | delay : HandlerOf .delay 4 delayDispatch
  | identify : HandlerOf .identify 4 identifyDispatch
  | dynamics : HandlerOf .dynamics 4 dynamicsDispatch
  | filter : HandlerOf .filterClassical 4 filterDispatch
  | peq : HandlerOf .filterParametric 4 peqDispatch
  | pan : HandlerOf .panBalance 4 panDispatch
  | siggen : HandlerOf .signalGen 4 siggenDispatch
  | basic (k : Kind) (h : k ∈ [Kind.boolean, .int32, .uint16, .uint32, .float32, .string]) :
    HandlerOf k 5 basicActuatorDispatch

theorem handlerFor_level {kind : Kind} {level : UInt16} {h : ObjRef → UInt16 → Handler K}
    (hh : handlerFor kind level = some h) :
    ∃ n, level = UInt16.ofNat (n + 1) ∧ (levelHandlers kind).getD n none = some h := by
  unfold handlerFor at hh
  split_ifs at hh with hl
  refine ⟨level.toNat - 1, ?_, hh⟩
  have h1 : 1 ≤ level.toNat := by
    have := mt Or.inl hl
    simpa [UInt16.lt_iff_toNat_lt, Nat.one_le_iff_ne_zero] using this
  rw [Nat.sub_add_cancel h1, UInt16.ofNat_toNat]

theorem handlerOf_of_handlerFor {kind : Kind} {level : UInt16} {h : ObjRef → UInt16 → Handler K}
    (hh : handlerFor kind level = some h) : HandlerOf kind level h := by
  obtain ⟨n, rfl, hg⟩ := handlerFor_level hh
  cases kind <;> (rcases n with _ | _ | _ | _ | _ | n) <;> simp [levelHandlers] at hg <;> subst hg
  all_goals first
    | exact .root _
    | exact .worker _ (by decide)
    | (constructor <;> decide)

theorem handlerFor_worker {kind : Kind}
    (h : kind ∉ [Kind.grouper, .deviceManager, .subscriptionManager]) :
    handlerFor (K := K) kind 2 = some workerDispatch := by
  cases kind <;> first | rfl | exact absurd (by decide) h

end Aes70
