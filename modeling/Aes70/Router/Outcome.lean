import Aes70.Device.Core
import Aes70.Router.Dispatch

/-!
# What a command can do

Every method of every class either leaves the device alone or changes it in one of a small number
of ways. `Outcome d i level index` lists them for a call on the object `i` of the device `d`; the
facts about commands are case analyses on it, and no later module looks into a handler again for
them.

* `Outcome` : status and device after a call.
* `objectDispatch_outcome` : every dispatch ends in one of these ways.
-/

namespace Aes70

open Handler

variable {K : Kconfig}

namespace Device

/-- The lock of the object does not keep the active session from writing. -/
def LockFree (d : Device K) (i : ObjRef) : Prop :=
  (d.obj i).lockState = .none ∨ (d.obj i).lockOwner = d.activeConn

end Device

/-- Status and device after a call of the method `level`.`index` of object `i`. -/
inductive Outcome (d : Device K) (i : ObjRef) (level index : UInt16) : Status → Device K → Prop
  /-- A query, or a refusal. -/
  | same (st : Status) : Outcome d i level index st d
  | lock (s : LockState) (hs : s ≠ .none) (hm : level = 1) (h : d.LockFree i) :
    Outcome d i level index .ok
      (d.modifyObj i fun o => { o with lockState := s, lockOwner := d.activeConn })
  | unlock (hm : level = 1) (h : d.LockFree i) :
    Outcome d i level index .ok
      (d.modifyObj i fun o => { o with lockState := .none, lockOwner := none })
  | enabled (v : Bool) (hk : (d.obj i).kind ∉ [Kind.grouper, .deviceManager, .subscriptionManager]) :
    Outcome d i level index .ok ((d.modifyObj i fun o => { o with enabled := v }).notify i 2 1)
  | label (s : Bytes) (hs : s.length ≤ 63)
    (hk : (d.obj i).kind ∉ [Kind.grouper, .deviceManager, .subscriptionManager]) :
    Outcome d i level index .ok ((d.modifyObj i fun o => { o with label := some s }).notify i 2 3)
  /-- Agents set their label without a notification. -/
  | agentLabel (s : Bytes) (hm : level = 2 ∧ index = 2) (hk : (d.obj i).kind = .grouper) :
    Outcome d i level index .ok (d.modifyObj i fun o => { o with label := some s })
  | num (v : F64) (hm : index = 2) (h : primaryProperty (d.obj i).kind = some (level, 1))
    (hs : (d.obj i).kind ≠ .string) :
    Outcome d i level index .ok (d.commitNum i v level 1 true)
  | str (s : Bytes) (hs : s.length ≤ 127) (h : (d.obj i).kind = .string) :
    Outcome d i level index .ok (d.commitStr i s 5 1 true)
  | dsp (p : Priv) (sel : Sel) (hm : level = 4) (hk : dspIsDspKind (d.obj i).kind = true) :
    Outcome d i level index .ok (d.dspWrite i p sel true)
  | grouper (g : GrouperPriv) (hk : (d.obj i).kind = .grouper) :
    Outcome d i level index .ok (storeGrouper i g d)
  | matrix (m : MatrixPriv) (hk : (d.obj i).kind = .matrix) :
    Outcome d i level index .ok (storeMatrix i m d)
  /-- `SetMembers` with a truncated list of cells. -/
  | truncatedMembers (m : MatrixPriv) (hm : level = 3 ∧ index = 6)
    (hk : (d.obj i).kind = .matrix) :
    Outcome d i level index .badFormat (storeMatrix i m d)
  /-- `AddGroup` with a full object table. -/
  | noRoom (h : K.maxObjects ≤ d.objects.length) :
    Outcome d i level index .processingFailed { d with nextOno := d.nextOno + 1 }
  | addGroup (g : GrouperPriv) (slot : Fin 16) (name : Bytes) {proxy : ObjRef} {d' : Device K}
    (hk : (d.obj i).kind = .grouper)
    (h : d.objectAlloc g.citizenKind d.rootBlock name = (some proxy, d')) :
    Outcome d i level index .ok
      (storeGrouper i (g.addGroup slot name ((d'.modifyObj proxy initProxy).obj proxy).ono)
        (d'.modifyObj proxy initProxy))
  | recall (es : List (UInt32 × F64)) (hm : level = 3 ∧ index = 26)
    (hk : (d.obj i).kind = .block) : Outcome d i level index .ok (d.recall es)
  /-- `ApplyParameterData` with a truncated list of entries. -/
  | truncatedRecall (es : List (UInt32 × F64)) (hm : level = 3 ∧ index = 26)
    (hk : (d.obj i).kind = .block) : Outcome d i level index .badFormat (d.recall es)
  | deviceName (s : Bytes) (hk : (d.obj i).kind = .deviceManager) :
    Outcome d i level index .ok ({ d with deviceName := strlcpy 64 s }.notify i 3 4)
  | deviceRole (s : Bytes) (hk : (d.obj i).kind = .deviceManager) :
    Outcome d i level index .ok ({ d with deviceRole := strlcpy 48 s }.notify i 3 6)
  | subscribe (k : Fin K.maxSubscriptions) (s : Subscription)
    (hk : (d.obj i).kind = .subscriptionManager) (hs : s.inUse = true)
    (hc : d.activeConn = some s.connIdx) (hfree : (d.subs k).inUse = false)
    (hnew : d.subscribed d.activeConn s.emitterOno s.eventLevel s.eventIndex = false) :
    Outcome d i level index .ok { d with subs := Function.update d.subs k s }
  | unsubscribe (p : Subscription → Bool) (hk : (d.obj i).kind = .subscriptionManager) :
    Outcome d i level index .ok (d.dropSubs p)
  | notifications (off : Bool) (hk : (d.obj i).kind = .subscriptionManager) :
    Outcome d i level index .ok { d with notificationsDisabled := off }

section Handlers

variable {d : Device K} {i : ObjRef} {level index : UInt16}

theorem rootDispatch_outcome {idx : UInt16}
    (h : idx = 3 ∨ idx = 4 ∨ idx = 6 → d.LockFree i) :
    Does (rootDispatch i idx) d (Outcome d i 1 idx) := by
  refine does_look ?_
  split
  · exact does_reply (.same _)
  · exact does_reply (.same _)
  · exact does_store (.lock .noReadWrite (by decide) rfl (h (by simp)))
  · exact does_store (.unlock rfl (h (by simp)))
  · exact does_reply (.same _)
  · exact does_store (.lock .noWrite (by decide) rfl (h (by simp)))
  · exact does_reply (.same _)
  · exact does_ret (.same _)

theorem workerDispatch_outcome (idx : UInt16)
    (hk : (d.obj i).kind ∉ [Kind.grouper, .deviceManager, .subscriptionManager]) :
    Does (workerDispatch i idx) d (Outcome d i 2 idx) := by
  refine does_look ?_
  split
  · exact does_reply (.same _)
  · exact does_reading (.same _) fun v => does_store (.enabled _ hk)
  · exact does_reply (.same _)
  · exact does_reply (.same _)
  · exact does_reading_of (Read.length_string_le 64) (.same _) fun s hs =>
      does_store (.label s hs hk)
  · exact does_reply (.same _)
  · exact does_ret (.same _)

theorem agentDispatch_outcome (idx : UInt16) (hk : (d.obj i).kind = .grouper) :
    Does (agentDispatch i idx) d (Outcome d i 2 idx) := by
  refine does_look ?_
  split
  · exact does_reply (.same _)
  · exact does_reading (.same _) fun s => does_store (.agentLabel s ⟨rfl, rfl⟩ hk)
  · exact does_reply (.same _)
  · exact does_reply (.same _)
  · exact does_ret (.same _)

theorem gainDispatch_outcome (idx : UInt16)
    (h : primaryProperty (d.obj i).kind = some (4, 1)) (hs : (d.obj i).kind ≠ .string) :
    Does (gainDispatch i idx) d (Outcome d i 4 idx) := by
  refine does_look ?_
  dsimp only
  split
  · exact does_reply (.same _)
  · exact does_reading (.same _) fun g => does_ranged (.same _) (does_store (.num _ rfl h hs))
  · exact does_ret (.same _)

theorem state2Dispatch_outcome (idx : UInt16)
    (h : primaryProperty (d.obj i).kind = some (4, 1)) (hs : (d.obj i).kind ≠ .string) :
    Does (state2Dispatch i idx) d (Outcome d i 4 idx) := by
  refine does_look ?_
  split
  · exact does_reply (.same _)
  · exact does_reading (.same _) fun s =>
      does_ite (fun _ => does_ret (.same _)) fun _ => does_store (.num _ rfl h hs)
  · exact does_ret (.same _)

theorem switchDispatch_outcome (idx : UInt16)
    (h : primaryProperty (d.obj i).kind = some (4, 1)) (hs : (d.obj i).kind ≠ .string) :
    Does (switchDispatch i idx) d (Outcome d i 4 idx) := by
  refine does_look ?_
  dsimp only
  split
  · exact does_reply (.same _)
  · exact does_reading (.same _) fun p =>
      does_ite (fun _ => does_ret (.same _)) fun _ => does_store (.num _ rfl h hs)
  · exact does_reading (.same _) fun k =>
      does_ite (fun _ => does_ret (.same _)) fun _ => does_reply (.same _)
  · exact does_reply (.same _)
  · exact does_ret (.same _)

theorem delayDispatch_outcome (idx : UInt16)
    (h : primaryProperty (d.obj i).kind = some (4, 1)) (hs : (d.obj i).kind ≠ .string) :
    Does (delayDispatch i idx) d (Outcome d i 4 idx) := by
  refine does_look ?_
  dsimp only
  split
  · exact does_reply (.same _)
  · exact does_reading (.same _) fun t => does_ranged (.same _) (does_store (.num _ rfl h hs))
  · exact does_ret (.same _)

theorem sensorDispatch_outcome (idx : UInt16) :
    Does (sensorDispatch i idx) d (Outcome d i 3 idx) := by
  refine does_look ?_
  split
  · exact does_reply (.same _)
  · exact does_ret (.same _)

theorem levelSensorDispatch_outcome (idx : UInt16) :
    Does (levelSensorDispatch i idx) d (Outcome d i 4 idx) := by
  refine does_look ?_
  dsimp only
  split
  · exact does_reply (.same _)
  · exact does_ret (.same _)

theorem identifyDispatch_outcome (idx : UInt16)
    (h : primaryProperty (d.obj i).kind = some (4, 1)) (hs : (d.obj i).kind ≠ .string) :
    Does (identifyDispatch i idx) d (Outcome d i 4 idx) := by
  refine does_look ?_
  split
  · exact does_reply (.same _)
  · exact does_reading (.same _) fun v => does_store (.num _ rfl h hs)
  · exact does_ret (.same _)

theorem getSetting_outcome (o : Obj) : Does (getSetting o) d (Outcome d i level index) := by
  unfold getSetting
  split
  all_goals first | exact does_reply (.same _) | exact does_ret (.same _)

theorem setNumber_outcome (r : Read F64)
    (h : primaryProperty (d.obj i).kind = some (5, 1)) (hs : (d.obj i).kind ≠ .string) :
    Does (setNumber i (d.obj i) r) d (Outcome d i 5 2) :=
  does_reading (.same _) fun _ => does_ranged (.same _) (does_store (.num _ rfl h hs))

theorem setSetting_outcome : Does (setSetting i (d.obj i)) d (Outcome d i 5 2) := by
  unfold setSetting
  split
  · next h =>
    exact does_reading (.same _) fun v => does_store (.num _ rfl (by simp [h, primaryProperty])
      (by simp [h]))
  · next h =>
    exact does_reading_of (Read.length_string_le 128) (.same _) fun s hs =>
      does_ite (fun _ => does_ret (.same _)) fun _ => does_store (.str s hs h)
  · next h => exact setNumber_outcome _ (by simp [h, primaryProperty]) (by simp [h])
  · next h => exact setNumber_outcome _ (by simp [h, primaryProperty]) (by simp [h])
  · next h => exact setNumber_outcome _ (by simp [h, primaryProperty]) (by simp [h])
  · next h => exact setNumber_outcome _ (by simp [h, primaryProperty]) (by simp [h])
  · exact does_ret (.same _)

theorem basicActuatorDispatch_outcome (idx : UInt16) :
    Does (basicActuatorDispatch i idx) d (Outcome d i 5 idx) := by
  refine does_look ?_
  split
  · exact getSetting_outcome _
  · exact setSetting_outcome
  · exact does_ret (.same _)

/-! ### DSP classes -/

/-- A method of a DSP class writes a parameter of its object, or does nothing. -/
theorem dspMethod_outcome {h : Handler K} (hm : DspMethod i h)
    (hk : dspIsDspKind (d.obj i).kind = true) : Does h d (Outcome d i 4 index) := by
  induction hm with
  | ret => exact does_ret (.same _)
  | reply => exact does_reply (.same _)
  | store hf =>
    refine does_store ?_
    obtain hsame | ⟨p, hp⟩ := hf d
    · rw [hsame]
      exact .same _
    · rw [hp]
      exact .dsp p _ rfl hk
  | look _ ih => exact does_look (ih d)
  | ranged _ ih => exact does_ranged (.same _) ih
  | ite _ _ ih ih' => exact does_ite (fun _ => ih) fun _ => ih'
  | byte _ ih | word _ ih | float _ ih | dbr _ ih => exact does_reading (.same _) ih

/-! ### Grouper and matrix -/

theorem addGroup_outcome (g : GrouperPriv) (hk : (d.obj i).kind = .grouper) :
    Does (addGroup i g) d (Outcome d i level index) := by
  refine does_reading (.same _) fun name => ?_
  split
  · exact does_ret (.same _)
  · refine does_look ?_
    split
    · next h =>
      rintro c rfl
      rw [(Device.objectAlloc_none h).2]
      exact .noRoom (Device.objectAlloc_none h).1
    · next h => exact does_storeReply (.addGroup g _ name hk h)

theorem addCitizen_outcome (g : GrouperPriv) (hk : (d.obj i).kind = .grouper) :
    Does (addCitizen i g) d (Outcome d i level index) := by
  refine does_reading (.same _) fun ⟨hostLen, ono⟩ => does_look ?_
  refine does_ite (fun _ => does_ret (.same _)) fun _ => ?_
  split
  · exact does_ret (.same _)
  · refine does_ite (fun _ => does_ret (.same _)) fun _ => ?_
    split
    · exact does_ret (.same _)
    · exact does_storeReply (.grouper _ hk)

theorem setEnrollment_outcome (g : GrouperPriv) (hk : (d.obj i).kind = .grouper) :
    Does (setEnrollment i g) d (Outcome d i level index) := by
  refine does_reading (.same _) fun ⟨⟨gi, ci⟩, on⟩ => ?_
  dsimp only
  split
  · exact does_ite (fun _ => does_ret (.same _)) fun _ => does_store (.grouper _ hk)
  · exact does_ret (.same _)

theorem grouperDispatch_outcome (idx : UInt16) (hk : (d.obj i).kind = .grouper) :
    Does (grouperDispatch i idx) d (Outcome d i 3 idx) := by
  refine does_look ?_
  split
  · next g _ =>
    split
    · exact addGroup_outcome g hk
    · refine does_reading (.same _) fun gi => ?_
      split
      · exact does_ite (fun _ => does_store (.grouper _ hk)) fun _ => does_ret (.same _)
      · exact does_ret (.same _)
    · exact does_reply (.same _)
    · exact does_reply (.same _)
    · exact addCitizen_outcome g hk
    · refine does_reading (.same _) fun ci => ?_
      split
      · exact does_ite (fun _ => does_store (.grouper _ hk)) fun _ => does_ret (.same _)
      · exact does_ret (.same _)
    · exact does_reply (.same _)
    · exact does_reply (.same _)
    · refine does_reading (.same _) fun ⟨gi, ci⟩ => ?_
      dsimp only
      split
      · exact does_reply (.same _)
      · exact does_ret (.same _)
    · exact setEnrollment_outcome g hk
    · refine does_reading (.same _) fun gi => ?_
      split
      · exact does_reply (.same _)
      · exact does_ret (.same _)
    · exact does_reply (.same _)
    · exact does_reading (.same _) fun v => does_store (.grouper _ hk)
    · exact does_reply (.same _)
    · exact does_reading (.same _) fun m =>
        does_ite (fun _ => does_ret (.same _)) fun _ => does_store (.grouper _ hk)
    · exact does_ret (.same _)
  · exact does_ret (.same _)

theorem setMembers_outcome (m : MatrixPriv) (hk : (d.obj i).kind = .matrix) :
    Does (setMembers i m) d (Outcome d i 3 6) := by
  refine does_reading (.same _) fun ⟨rows, cols⟩ => ?_
  refine does_ite (fun _ => does_ret (.same _)) fun _ => ?_
  rintro c rfl
  dsimp only
  split_ifs
  · exact .truncatedMembers _ ⟨rfl, rfl⟩ hk
  · exact .matrix _ hk

theorem matrixDispatch_outcome (idx : UInt16) (hk : (d.obj i).kind = .matrix) :
    Does (matrixDispatch i idx) d (Outcome d i 3 idx) := by
  refine does_look ?_
  split
  · next m _ =>
    split
    · exact does_reply (.same _)
    · exact does_reading (.same _) fun ⟨x, y⟩ =>
        does_ite (fun _ => does_ret (.same _)) fun _ =>
          does_ite (fun _ => does_ret (.same _)) fun _ => does_store (.matrix _ hk)
    · exact does_reply (.same _)
    · exact does_reading (.same _) fun ⟨x, y⟩ =>
        does_ite (fun _ => does_ret (.same _)) fun _ => does_store (.matrix _ hk)
    · exact does_reply (.same _)
    · exact setMembers_outcome m hk
    · exact does_reading (.same _) fun ⟨x, y⟩ =>
        does_ite (fun _ => does_reply (.same _)) fun _ => does_ret (.same _)
    · exact does_reading (.same _) fun ⟨⟨x, y⟩, ono⟩ =>
        does_ite (fun _ => does_store (.matrix _ hk)) fun _ => does_ret (.same _)
    · exact does_reply (.same _)
    · exact does_reading (.same _) fun v => does_store (.matrix _ hk)
    · exact does_reply (.same _)
    · exact does_reading (.same _) fun v => does_store (.matrix _ hk)
    · exact does_reply (.same _)
    · exact does_reading (.same _) fun v => does_store (.matrix _ hk)
    · exact does_reading (.same _) fun ⟨x, y⟩ =>
        does_ite (fun _ => does_ret (.same _)) fun _ => does_store (.matrix _ hk)
    · exact does_store (.matrix _ hk)
    · exact does_ret (.same _)
    · exact does_ret (.same _)
    · exact does_ret (.same _)
  · exact does_ret (.same _)

/-! ### Managers and blocks -/

theorem devmgrDispatch_outcome (idx : UInt16) (hk : (d.obj i).kind = .deviceManager) :
    Does (devmgrDispatch i idx) d (Outcome d i 3 idx) := by
  refine does_look ?_
  split
  case h_5 => exact does_reading (.same _) fun s => does_store (.deviceName s hk)
  case h_8 => exact does_reading (.same _) fun s => does_store (.deviceRole s hk)
  all_goals first
    | exact does_reply (.same _)
    | exact does_ret (.same _)

theorem applyParameterData_outcome (hk : (d.obj i).kind = .block) :
    Does applyParameterData d (Outcome d i 3 26) := by
  rintro c rfl
  have heq := applyParameterData_dev c
  unfold Device.recallOutcome at heq
  split at heq
  · obtain ⟨hst, hdev⟩ := Prod.mk.inj heq
    rw [hst, hdev]
    exact .same _
  · next es truncated _ =>
    obtain ⟨hst, hdev⟩ := Prod.mk.inj heq
    rw [hst, hdev]
    cases truncated
    · exact .recall es ⟨rfl, rfl⟩ hk
    · exact .truncatedRecall es ⟨rfl, rfl⟩ hk

theorem blockDispatch_outcome (idx : UInt16) (hk : (d.obj i).kind = .block) :
    Does (blockDispatch i idx) d (Outcome d i 3 idx) := by
  refine does_look ?_
  split
  · exact does_reply (.same _)
  · exact does_reply (.same _)
  · exact does_reply (.same _)
  · exact does_reply (.same _)
  · exact applyParameterData_outcome hk
  · exact does_ret (.same _)

theorem inUse_readSubscription (ev2 : Bool) (rd : Reader) :
    (readSubscription ev2 rd).1.inUse = true := by
  cases ev2 <;> rfl

theorem addSubscription_outcome (ev2 : Bool) (hk : (d.obj i).kind = .subscriptionManager) :
    Does (addSubscription ev2) d (Outcome d i level index) := by
  refine does_reading_of (P := fun s => s.inUse = true) (inUse_readSubscription ev2) (.same _)
    fun s hs => does_look ?_
  split
  · exact does_ret (.same _)
  · next conn hc =>
    refine does_ite (fun _ => does_ret (.same _)) fun hnew => ?_
    split
    · exact does_ret (.same _)
    · next k hslot =>
      have hfree : (d.subs k).inUse = false := by simpa using List.find?_some hslot
      refine does_store (.subscribe _ _ hk hs hc hfree ?_)
      rw [hc]
      simpa using hnew

theorem submgrDispatch_outcome (idx : UInt16) (hk : (d.obj i).kind = .subscriptionManager) :
    Does (submgrDispatch i idx) d (Outcome d i 3 idx) := by
  unfold submgrDispatch
  split
  · exact addSubscription_outcome _ hk
  · exact does_reading (.same _) fun ⟨e, l, x⟩ => does_store (.unsubscribe _ hk)
  · exact does_store (.notifications _ hk)
  · exact does_store (.notifications _ hk)
  · exact addSubscription_outcome _ hk
  · exact does_reading (.same _) fun ⟨e, l, x⟩ => does_store (.unsubscribe _ hk)
  · exact does_ret (.same _)

/-! ### Dispatch -/

theorem lockFree_of_gate {level index : UInt16} (hg : d.gate i level index = none)
    (hw : methodIsWrite (d.obj i).kind level index = true) : d.LockFree i := by
  unfold Device.LockFree
  by_contra! hno
  obtain ⟨hl, ho⟩ := hno
  have hlocked : (d.obj i).lockState = .noWrite ∨ (d.obj i).lockState = .noReadWrite := by
    cases h : (d.obj i).lockState <;> simp [h] at hl ⊢
  unfold Device.gate at hg
  simp only [hw, Bool.and_true] at hg
  have hne : (d.activeConn != (d.obj i).lockOwner) = true := by simpa using ho.symm
  rcases hlocked with h | h <;>
  · simp only [h, hne] at hg
    split_ifs at hg <;> simp_all

/-- **Every dispatch ends in one of the ways `Outcome` lists.** -/
theorem objectDispatch_outcome (i : ObjRef) (level index : UInt16) :
    Does (objectDispatch i level index) d (Outcome d i level index) := by
  refine does_look ?_
  split
  · exact does_ret (.same _)
  · next h hh =>
    split
    · exact does_ret (.same _)
    · next hg =>
      have hof := handlerOf_of_handlerFor hh
      generalize hkind : (d.obj i).kind = kind at hof
      cases hof with
      | root => exact rootDispatch_outcome fun hidx => lockFree_of_gate hg (by
          rcases hidx with rfl | rfl | rfl <;> simp [methodIsWrite])
      | worker _ hk => exact workerDispatch_outcome _ (hkind ▸ hk)
      | agent => exact agentDispatch_outcome _ hkind
      | block => exact blockDispatch_outcome _ hkind
      | grouper => exact grouperDispatch_outcome _ hkind
      | matrix => exact matrixDispatch_outcome _ hkind
      | devmgr => exact devmgrDispatch_outcome _ hkind
      | submgr => exact submgrDispatch_outcome _ hkind
      | sensor => exact sensorDispatch_outcome _
      | levelSensor => exact levelSensorDispatch_outcome _
      | gain _ hk =>
        simp only [List.mem_cons, List.not_mem_nil, or_false] at hk
        exact gainDispatch_outcome _ (by rcases hk with rfl | rfl <;> simp [hkind, primaryProperty])
          (by rcases hk with rfl | rfl <;> simp [hkind])
      | state2 _ hk =>
        simp only [List.mem_cons, List.not_mem_nil, or_false] at hk
        exact state2Dispatch_outcome _
          (by rcases hk with rfl | rfl <;> simp [hkind, primaryProperty])
          (by rcases hk with rfl | rfl <;> simp [hkind])
      | switch =>
        exact switchDispatch_outcome _ (by simp [hkind, primaryProperty]) (by simp [hkind])
      | delay => exact delayDispatch_outcome _ (by simp [hkind, primaryProperty]) (by simp [hkind])
      | identify =>
        exact identifyDispatch_outcome _ (by simp [hkind, primaryProperty]) (by simp [hkind])
      | dynamics =>
        exact dspMethod_outcome dynamicsDispatch_dspMethod (by rw [hkind]; rfl)
      | filter => exact dspMethod_outcome filterDispatch_dspMethod (by rw [hkind]; rfl)
      | peq => exact dspMethod_outcome peqDispatch_dspMethod (by rw [hkind]; rfl)
      | pan => exact dspMethod_outcome panDispatch_dspMethod (by rw [hkind]; rfl)
      | siggen => exact dspMethod_outcome siggenDispatch_dspMethod (by rw [hkind]; rfl)
      | basic => exact basicActuatorDispatch_outcome _

end Handlers

end Aes70
