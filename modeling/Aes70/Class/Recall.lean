import Aes70.Class.Manager
import Aes70.Device.Core

/-!
# What a recall stores

`ApplyParameterData` commits one value for each entry of its blob, and each commit may fan out. As
no store of a recall changes what the later ones depend on, the whole recall is one list of stores,
known from the device it starts in.

* `Device.recallStores` : that list.
* `Device.core_recall` : a recall is its stores, up to the traces of output.
* `Device.recall_eq_self_iff` : exactly when a recall leaves no trace at all.
-/

namespace Aes70

variable {K : Kconfig}

namespace Device

/-! ### Silent devices -/

/-- Neither a notification nor a callback can leave the device. -/
def Quiet (d : Device K) : Prop := d.notificationsDisabled = true ∧ d.cfg.onControlChanged = false

instance (d : Device K) : Decidable d.Quiet := inferInstanceAs (Decidable (_ ∧ _))

/-- From a quiet device nothing but objects changes. -/
theorem commitOrder_quiet : CommitOrder fun d d' : Device K =>
    d.Quiet → d'.Quiet ∧ d'.log = d.log ∧ d'.conns = d.conns where
  refl _ h := ⟨h, rfl, rfl⟩
  trans h h' hq := by
    obtain ⟨hq', hl, hc⟩ := h hq
    obtain ⟨hq'', hl', hc'⟩ := h' hq'
    exact ⟨hq'', hl'.trans hl, hc'.trans hc⟩
  modifyObj _ _ _ h := ⟨h, rfl, rfl⟩
  notify d i level index h := by
    rw [notify_eq, if_pos h.1]
    exact ⟨h, rfl, rfl⟩
  controlChanged d i h := by
    rw [Device.controlChanged, if_neg (by simp [h.2])]
    exact ⟨h, rfl, rfl⟩

theorem eq_of_core {d d' : Device K} (h : d.core = d'.core) (hl : d.log = d'.log)
    (hc : d.conns = d'.conns) : d = d' := by
  have h' := congrArg (fun e : Device K => { e with log := d.log, conns := d.conns }) h
  calc d = { d'.core with log := d.log, conns := d.conns } := h'
    _ = d' := by rw [hl, hc]; rfl

/-- Whether a device is quiet is part of its core. -/
theorem quiet_iff_of_core {d d' : Device K} (h : d.core = d'.core) : d.Quiet ↔ d'.Quiet := by
  have hq : d.core.Quiet ↔ d'.core.Quiet := by rw [h]
  exact hq

theorem length_log_le {d d' : Device K} (h : Outputs d d') : d.log.length ≤ d'.log.length := by
  obtain ⟨es, he, -⟩ := h
  simp [he]

theorem length_log_notify {d : Device K} (hn : d.notificationsDisabled ≠ true) (i : ObjRef)
    (level index : UInt16) : d.log.length < (d.notify i level index).log.length := by
  have hall := length_log_le (outputs_notifyAll d i level index)
  rw [notify_eq, if_neg hn]
  simpa [emit] using Nat.lt_succ_of_le hall

theorem length_log_controlChanged {d : Device K} (hc : d.cfg.onControlChanged = true)
    (i : ObjRef) : d.log.length < (d.controlChanged i).log.length := by
  rw [Device.controlChanged, if_pos hc]
  simp [emit]

/-- On a device that is not quiet, a commit by a controller is recorded. -/
theorem length_log_commitNum {d : Device K} (hq : ¬d.Quiet) (i : ObjRef) (v : F64)
    (level index : UInt16) : d.log.length < (d.commitNum i v level index true).log.length := by
  let d₁ := d.modifyObj i fun o => { o with num := v }
  let d₂ := d₁.notify i level index
  have hnotify : d₁.log.length ≤ d₂.log.length := length_log_le (outputs_notify _ _ _ _)
  have hcall : d₂.log.length ≤ (d₂.controlChanged i).log.length :=
    length_log_le (outputs_controlChanged _ _)
  have hfan : (d₂.controlChanged i).log.length ≤
      ((d₂.controlChanged i).grouperOnCommit i).log.length :=
    length_log_le (commitOrder_outputs.grouperOnCommit _ _)
  have hlt : d₁.log.length < (d₂.controlChanged i).log.length := by
    have hq₂ : ¬d₂.Quiet := fun h => hq ((quiet_iff_of_core (core_notify d₁ i level index)).mp h)
    by_cases hn : d.notificationsDisabled = true
    · have hcb : d₂.cfg.onControlChanged = true := by
        have hn₂ : d₂.notificationsDisabled = true :=
          (congrArg notificationsDisabled (core_notify d₁ i level index)).trans hn
        simpa [Quiet, hn₂] using hq₂
      exact lt_of_le_of_lt hnotify (length_log_controlChanged hcb i)
    · have hn₁ : d₁.notificationsDisabled ≠ true := hn
      exact lt_of_lt_of_le (length_log_notify hn₁ i level index) hcall
  exact lt_of_lt_of_le hlt hfan

/-! ### Lists of stores -/

theorem writeNums_eq_self_iff (d : Device K) (ws : List (ObjRef × F64)) :
    d.writeNums ws = d ↔
      ∀ j v, j < d.objects.length → lastWrite ws j = some v → v = (d.obj j).num := by
  constructor
  · intro h j v hj hv
    have hobj := obj_writeNums d ws hj
    rw [h, hv] at hobj
    exact (congrArg Obj.num hobj).symm
  · intro h
    have hobjects : (d.writeNums ws).objects = d.objects := by
      refine List.ext_getElem (length_writeNums d ws) fun j hj hj' => ?_
      have hobj := obj_writeNums d ws hj'
      have hself : (lastWrite ws j).getD (d.obj j).num = (d.obj j).num := by
        cases hl : lastWrite ws j with
        | none => rfl
        | some v => exact h j v hj' hl
      rw [hself] at hobj
      simpa [obj, hj, hj'] using hobj
    rw [writeNums_eq, hobjects]

/-! ### Entries -/

/-- The values one entry of the blob stores. -/
def entryStores (d : Device K) (e : UInt32 × F64) : List (ObjRef × F64) :=
  match recallTarget d e.1 with
  | some (t, _) => d.commitWrites t (clampToRange (d.obj t) e.2)
  | none => []

/-- The values a recall stores. -/
def recallStores (d : Device K) (es : List (UInt32 × F64)) : List (ObjRef × F64) :=
  es.flatMap d.entryStores

/-- What an entry names is an object of a class that snapshots hold, with its value. -/
theorem recallTarget_some {d : Device K} {ono : UInt32} {t : ObjRef} {p : UInt16 × UInt16}
    (h : recallTarget d ono = some (t, p)) : t < d.objects.length ∧
      primaryProperty (d.obj t).kind = some p ∧ isParamKind (d.obj t).kind = true := by
  unfold recallTarget at h
  split at h
  · next hf =>
    split_ifs at h with hparam
    obtain ⟨q, hp, hq⟩ := Option.map_eq_some_iff.mp h
    cases hq
    exact ⟨find_lt hf, hp, hparam⟩
  · cases h

theorem recallTarget_shape (d : Device K) (ono : UInt32) :
    recallTarget d.shape ono = recallTarget d ono := by
  simp only [recallTarget, find_shape, obj_shape]
  rfl

theorem recallTarget_eq_of_shape {d d' : Device K} (h : d.shape = d'.shape) (ono : UInt32) :
    recallTarget d ono = recallTarget d' ono := by
  rw [← recallTarget_shape, h, recallTarget_shape]

theorem entryStores_eq_of_shape {d d' : Device K} (h : d.shape = d'.shape) (e : UInt32 × F64) :
    d.entryStores e = d'.entryStores e := by
  have hclamp (t : ObjRef) : clampToRange (d.obj t) e.2 = clampToRange (d'.obj t) e.2 := by
    have hobj : (d.obj t).eraseNum = (d'.obj t).eraseNum := by rw [← obj_shape, h, obj_shape]
    have herase : clampToRange (d.obj t).eraseNum e.2 = clampToRange (d'.obj t).eraseNum e.2 := by
      rw [hobj]
    exact herase
  simp only [entryStores, recallTarget_eq_of_shape h, hclamp, commitWrites, copies_eq_of_shape h]

theorem core_applyEntry (d : Device K) (e : UInt32 × F64) :
    (applyEntry d e.1 e.2).core = (d.writeNums (d.entryStores e)).core := by
  unfold applyEntry entryStores
  cases h : recallTarget d e.1 with
  | some p => exact core_commitNum (recallTarget_some h).1 _ _ _
  | none => rfl

theorem recall_cons (d : Device K) (e : UInt32 × F64) (es : List (UInt32 × F64)) :
    d.recall (e :: es) = (applyEntry d e.1 e.2).recall es := rfl

theorem recall_append (d : Device K) (es es' : List (UInt32 × F64)) :
    d.recall (es ++ es') = (d.recall es).recall es' := List.foldl_append

/-- **A recall is its stores**, up to the traces of notifications and callbacks. -/
theorem core_recall (d : Device K) (es : List (UInt32 × F64)) :
    (d.recall es).core = (d.writeNums (d.recallStores es)).core := by
  induction es generalizing d with
  | nil => rfl
  | cons e es ih =>
    have he := core_applyEntry d e
    have hshape : (applyEntry d e.1 e.2).shape = d.shape :=
      (shape_eq_of_core he).trans (shape_writeNums d _)
    have hstores : (applyEntry d e.1 e.2).recallStores es = d.recallStores es :=
      List.flatMap_congr fun e' _ => entryStores_eq_of_shape hshape e'
    calc ((applyEntry d e.1 e.2).recall es).core
        = ((applyEntry d e.1 e.2).writeNums (d.recallStores es)).core := by rw [ih, hstores]
      _ = ((d.writeNums (d.entryStores e)).writeNums (d.recallStores es)).core := by
        rw [core_writeNums, he, ← core_writeNums]
      _ = (d.writeNums (d.recallStores (e :: es))).core := by
        rw [← writeNums_append]
        rfl

theorem nextOno_recall (d : Device K) (es : List (UInt32 × F64)) :
    (d.recall es).nextOno = d.nextOno := by
  have h := congrArg nextOno (core_recall d es)
  rw [writeNums_eq] at h
  exact h

theorem shape_recall (d : Device K) (es : List (UInt32 × F64)) : (d.recall es).shape = d.shape :=
  (shape_eq_of_core (core_recall d es)).trans (shape_writeNums d _)

/-- A recall is a sequence of commits to objects that snapshots hold. -/
theorem recall_rel {R : Device K → Device K → Prop} (hrefl : ∀ d, R d d)
    (htrans : ∀ {d d' d''}, R d d' → R d' d'' → R d d'')
    (hcommit : ∀ d t level index v, t < d.objects.length →
      primaryProperty (d.obj t).kind = some (level, index) → isParamKind (d.obj t).kind = true →
        R d (d.commitNum t v level index true)) (d : Device K) (es : List (UInt32 × F64)) :
    R d (d.recall es) := by
  refine List.foldlRecOn (motive := fun d' => R d d') _ _ (hrefl d) fun d' ih e _ => htrans ih ?_
  unfold applyEntry
  split
  next t level index h =>
    obtain ⟨ht, hp, hparam⟩ := recallTarget_some h
    exact hcommit d' t level index _ ht hp hparam
  next => exact hrefl d'

/-- A preorder that commits respect is respected by recalls. -/
theorem CommitOrder.recall {R : Device K → Device K → Prop} (hR : CommitOrder R) (d : Device K)
    (es : List (UInt32 × F64)) : R d (d.recall es) :=
  recall_rel hR.refl hR.trans
    (fun d t level index v _ _ _ => hR.commitNum d t v level index true) d es

/-! ### Recalls without a trace -/

theorem recall_of_quiet {d : Device K} (hq : d.Quiet) (es : List (UInt32 × F64)) :
    d.recall es = d.writeNums (d.recallStores es) := by
  obtain ⟨-, hlog, hconns⟩ := CommitOrder.recall commitOrder_quiet d es hq
  have hws := writeNums_eq d (d.recallStores es)
  have hl : (d.writeNums (d.recallStores es)).log = d.log := by rw [hws]
  have hc : (d.writeNums (d.recallStores es)).conns = d.conns := by rw [hws]
  exact eq_of_core (core_recall d es) (hlog.trans hl.symm) (hconns.trans hc.symm)

theorem recall_of_no_target {d : Device K} {es : List (UInt32 × F64)}
    (h : ∀ e ∈ es, recallTarget d e.1 = none) : d.recall es = d := by
  induction es with
  | nil => rfl
  | cons e es ih =>
    obtain ⟨he, hes⟩ := List.forall_mem_cons.mp h
    rw [recall_cons, applyEntry, he]
    exact ih hes

theorem recall_ne_of_loud {d : Device K} (hq : ¬d.Quiet) {es : List (UInt32 × F64)}
    {e : UInt32 × F64} (he : e ∈ es) (ht : recallTarget d e.1 ≠ none) : d.recall es ≠ d := by
  intro hself
  obtain ⟨l, r, rfl⟩ := List.append_of_mem he
  let d₁ := d.recall l
  have hq₁ : ¬d₁.Quiet := fun h => hq (by
    have hquiet : d₁.shape.Quiet ↔ d.shape.Quiet := by rw [shape_recall]
    exact hquiet.mp h)
  have hlt : d₁.log.length < (applyEntry d₁ e.1 e.2).log.length := by
    rw [← recallTarget_eq_of_shape (shape_recall d l)] at ht
    unfold applyEntry
    split
    · exact length_log_commitNum hq₁ _ _ _ _
    · next hnone => exact absurd hnone ht
  have hle : d.log.length ≤ d₁.log.length :=
    length_log_le (CommitOrder.recall commitOrder_outputs d l)
  have hle' : (applyEntry d₁ e.1 e.2).log.length ≤ (d.recall (l ++ e :: r)).log.length := by
    rw [recall_append, recall_cons]
    exact length_log_le (CommitOrder.recall commitOrder_outputs _ r)
  rw [hself] at hle'
  exact absurd (lt_of_le_of_lt hle (lt_of_lt_of_le hlt hle')) (lt_irrefl _)

/-- A recall of these entries leaves a trace: one of them names an object that can be recalled, and
some notification or callback can leave the device or some object ends with a new value. -/
def RecallTraces (d : Device K) (es : List (UInt32 × F64)) : Prop :=
  (∃ e ∈ es, recallTarget d e.1 ≠ none) ∧
    (d.Quiet → ∃ j v, j < d.objects.length ∧ lastWrite (d.recallStores es) j = some v ∧
      v ≠ (d.obj j).num)

/-- **A recall without a trace** is one that `RecallTraces` does not describe. -/
theorem recall_eq_self_iff (d : Device K) (es : List (UInt32 × F64)) :
    d.recall es = d ↔ ¬d.RecallTraces es := by
  by_cases hnone : ∃ e ∈ es, recallTarget d e.1 ≠ none
  · by_cases hq : d.Quiet
    · rw [recall_of_quiet hq, writeNums_eq_self_iff]
      simp only [RecallTraces, hnone, hq, true_and, true_implies]
      push Not
      rfl
    · obtain ⟨e, he, ht⟩ := hnone
      exact iff_of_false (recall_ne_of_loud hq he ht)
        fun h => h ⟨⟨e, he, ht⟩, fun hq' => absurd hq' hq⟩
  · refine iff_of_true (recall_of_no_target ?_) fun h => hnone h.1
    push Not at hnone
    exact hnone

end Device

end Aes70
