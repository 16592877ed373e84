import Aes70.Class.Recall
import Aes70.Router.Outcome

/-!
# What a command leaves alone

A command is addressed to one object. Of the others it can change the scalar values, through a
recall or the fan-out of a group, and the links of the tree, when it adds an object; nothing else.

* `Device.WritesValues` : the methods that can store values into objects other than their own.
* `Outcome.frame` : the frame rule for objects the command is not addressed to.
* `rootDispatch_congr`, `workerDispatch_congr`, `agentDispatch_congr` : what the methods of the base
  classes leave alone in their own object.
-/

namespace Aes70

variable {K : Kconfig}

namespace Device

theorem core_dspWrite (d : Device K) (i : ObjRef) (p : Priv) (sel : Sel) (b : Bool) :
    (d.dspWrite i p sel b).core = (d.modifyObj i fun o => { o with priv := p }).core := by
  unfold dspWrite notifyAfterWrite
  dsimp only
  split_ifs <;> simp

theorem CommitOrder.dspWrite {R : Device K → Device K → Prop} (hR : CommitOrder R) (d : Device K)
    (i : ObjRef) (p : Priv) (sel : Sel) (b : Bool) : R d (d.dspWrite i p sel b) := by
  have hstore := hR.trans (hR.modifyObj d i fun o => { o with priv := p })
    (hR.notify _ i (selToProp sel).1 (selToProp sel).2)
  unfold Device.dspWrite notifyAfterWrite
  dsimp only
  split_ifs
  · exact hR.trans hstore (hR.controlChanged _ _)
  · exact hstore

theorem obj_registered (d : Device K) (kind : Kind) (role : Bytes) {i : ObjRef}
    (hi : i < d.objects.length) : (d.registered kind role).obj i = d.obj i := by
  simp [registered, obj, List.getD_eq_getElem?_getD, List.getElem?_append_left hi]

@[simp] theorem length_blockAddMember (d : Device K) (block : Option ObjRef) (child : ObjRef) :
    (d.blockAddMember block child).objects.length = d.objects.length := by
  unfold blockAddMember
  split
  · rfl
  · split_ifs
    · rfl
    · simp

/-- Linking changes objects only. -/
theorem blockAddMember_eq (d : Device K) (block : Option ObjRef) (child : ObjRef) :
    d.blockAddMember block child =
      { d with objects := (d.blockAddMember block child).objects } := by
  unfold blockAddMember
  split
  · rfl
  · split_ifs <;> rfl

/-- A new object uses a number up; beside that only objects change. -/
theorem eq_of_objectAlloc {d d' : Device K} {kind : Kind} {parent : Option ObjRef} {role : Bytes}
    {new : ObjRef} (h : d.objectAlloc kind parent role = (some new, d')) :
    d' = { d with nextOno := d.nextOno + 1, objects := d'.objects } ∧
      d'.objects.length = d.objects.length + 1 := by
  obtain ⟨-, -, rfl⟩ := objectAlloc_some h
  refine ⟨blockAddMember_eq .., ?_⟩
  rw [length_blockAddMember]
  simp [registered]

section Links

variable {α : Type} {p : Obj → α} (hchildren : ∀ o cs, p { o with children := cs } = p o)
  (howner : ∀ o n, p { o with ownerOno := n } = p o)
include hchildren howner

/-- Linking a member into a block changes the links only. -/
theorem obj_blockAddMember (d : Device K) (block : Option ObjRef) (child i : ObjRef) :
    p ((d.blockAddMember block child).obj i) = p (d.obj i) := by
  unfold blockAddMember
  split
  · rfl
  · split_ifs
    · rfl
    · rw [obj_modifyObj_congr p fun o => howner o _, obj_modifyObj_congr p fun o => hchildren o _]

/-- A new object leaves the old ones alone, up to the links. -/
theorem obj_objectAlloc {d d' : Device K} {kind : Kind} {parent : Option ObjRef} {role : Bytes}
    {new i : ObjRef} (h : d.objectAlloc kind parent role = (some new, d'))
    (hi : i < d.objects.length) : p (d'.obj i) = p (d.obj i) := by
  obtain ⟨-, -, rfl⟩ := objectAlloc_some h
  rw [obj_blockAddMember hchildren howner, obj_registered d kind role hi]

end Links

/-- The method can store values into other objects than its own: a recall, or the setter of a
class whose values groups copy. -/
def WritesValues (d : Device K) (j : ObjRef) (level index : UInt16) : Prop :=
  ((d.obj j).kind = .block ∧ level = 3 ∧ index = 26) ∨
    (primaryProperty (d.obj j).kind = some (level, 1) ∧ (d.obj j).kind ≠ .string ∧ index = 2)

/-- A preorder that commits respect is respected by commands, if it does not see what else they
store: objects, the next number, subscriptions and the names of the device. -/
theorem CommitOrder.outcome {R : Device K → Device K → Prop} (hR : CommitOrder R)
    (hstore : ∀ (d : Device K) objects nextOno subs disabled name role, R d { d with
      objects := objects, nextOno := nextOno, subs := subs, notificationsDisabled := disabled
      deviceName := name, deviceRole := role })
    {d d' : Device K} {i : ObjRef} {level index : UInt16} {st : Status}
    (h : Outcome d i level index st d') : R d d' := by
  cases h with
  | same => exact hR.refl d
  | lock | unlock | agentLabel | grouper | matrix | truncatedMembers => exact hR.modifyObj d i _
  | noRoom | subscribe | unsubscribe | notifications => exact hstore d ..
  | enabled | label => exact hR.trans (hR.modifyObj d i _) (hR.notify _ i _ _)
  | deviceName | deviceRole => exact hR.trans (hstore d ..) (hR.notify _ i _ _)
  | num v => exact hR.commitNum d i v level 1 true
  | str s => exact hR.commitStr d i s 5 1 true
  | dsp p sel => exact hR.dspWrite d i p sel true
  | @addGroup g slot name proxy d₁ hk h =>
    obtain ⟨hd₁, -⟩ := eq_of_objectAlloc h
    have hproxy : R d d₁ := by
      rw [hd₁]
      exact hstore d ..
    exact hR.trans (hR.trans hproxy (hR.modifyObj _ _ _)) (hR.modifyObj _ _ _)
  | «recall» es | truncatedRecall es => exact hR.recall d es

end Device

open Device

/-- **The frame rule**: what `p` sees of an object that the command is not addressed to stays the
same, if `p` sees no links, and no value where the method can store some. -/
theorem Outcome.frame {d d' : Device K} {i j : ObjRef} {level index : UInt16} {st : Status}
    (h : Outcome d j level index st d') (hj : j < d.objects.length) (hi : i < d.objects.length)
    (hne : j ≠ i) {α : Type} {p : Obj → α} (hchildren : ∀ o cs, p { o with children := cs } = p o)
    (howner : ∀ o n, p { o with ownerOno := n } = p o)
    (hnum : d.WritesValues j level index → ∀ o v, p { o with num := v } = p o) :
    p (d'.obj i) = p (d.obj i) := by
  cases h with
  | same | noRoom | subscribe | unsubscribe | notifications => rfl
  | lock | unlock | agentLabel | grouper | matrix | truncatedMembers =>
    exact congrArg p (obj_modifyObj_ne hne _)
  | enabled | label => rw [obj_notify, obj_modifyObj_ne hne]
  | deviceName | deviceRole => rw [obj_notify]; rfl
  | num v hm hk hs =>
    rw [obj_eq_of_core (core_commitNum hj v level 1), obj_writeNums _ _ hi]
    exact hnum (.inr ⟨hk, hs, hm⟩) _ _
  | str s => rw [obj_eq_of_core (core_commitStr d j s 5 1 true), obj_modifyObj_ne hne]
  | dsp q sel => rw [obj_eq_of_core (core_dspWrite d j q sel true), obj_modifyObj_ne hne]
  | @addGroup g slot name proxy d' _ h =>
    have hnew : proxy ≠ i := by
      obtain ⟨-, rfl, -⟩ := objectAlloc_some h
      exact hi.ne'
    rw [storeGrouper, obj_modifyObj_ne hne, obj_modifyObj_ne hnew,
      obj_objectAlloc hchildren howner h hi]
  | «recall» es hm hk | truncatedRecall es hm hk =>
    rw [obj_eq_of_core (core_recall d es), obj_writeNums _ _ hi]
    exact hnum (.inl ⟨hk, hm⟩) _ _

/-! ### Methods of the base classes -/

section Base

variable {d : Device K} {α : Type} {p : Obj → α}

/-- The methods of OcaRoot change the lock. -/
theorem rootDispatch_congr (hlock : ∀ o s c, p { o with lockState := s, lockOwner := c } = p o)
    (i : ObjRef) (idx : UInt16) :
    Handler.Does (rootDispatch i idx) d fun _ d' => p (d'.obj i) = p (d.obj i) := by
  have hstore (s : LockState) (c : Option ℕ) : p ((d.modifyObj i fun o =>
      { o with lockState := s, lockOwner := c }).obj i) = p (d.obj i) :=
    obj_modifyObj_congr p (fun o => hlock o s c) d i i
  refine Handler.does_look ?_
  split
  case h_3 | h_4 | h_6 => exact Handler.does_store (hstore _ _)
  case h_8 => exact Handler.does_ret rfl
  all_goals exact Handler.does_reply rfl

/-- The methods of OcaWorker change the enable flag and the label. -/
theorem workerDispatch_congr (henabled : ∀ o b, p { o with enabled := b } = p o)
    (hlabel : ∀ o s, p { o with label := s } = p o) (i : ObjRef) (idx : UInt16) :
    Handler.Does (workerDispatch i idx) d fun _ d' => p (d'.obj i) = p (d.obj i) := by
  refine Handler.does_look ?_
  split
  case h_2 =>
    refine Handler.does_reading rfl fun v => Handler.does_store ?_
    rw [obj_notify]
    exact obj_modifyObj_congr p (fun o => henabled o _) d i i
  case h_5 =>
    refine Handler.does_reading rfl fun s => Handler.does_store ?_
    rw [obj_notify]
    exact obj_modifyObj_congr p (fun o => hlabel o _) d i i
  case h_7 => exact Handler.does_ret rfl
  all_goals exact Handler.does_reply rfl

/-- The methods of OcaAgent change the label. -/
theorem agentDispatch_congr (hlabel : ∀ o s, p { o with label := s } = p o) (i : ObjRef)
    (idx : UInt16) :
    Handler.Does (agentDispatch i idx) d fun _ d' => p (d'.obj i) = p (d.obj i) := by
  refine Handler.does_look ?_
  split
  case h_2 =>
    exact Handler.does_reading rfl fun s =>
      Handler.does_store (obj_modifyObj_congr p (fun o => hlabel o _) d i i)
  case h_5 => exact Handler.does_ret rfl
  all_goals exact Handler.does_reply rfl

end Base

end Aes70
