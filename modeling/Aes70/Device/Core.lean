import Aes70.Device.Registry

/-!
# What sending and committing leave alone

Notifications and callbacks reach the outside; of the device they touch only the log and the
`last_tx_us` stamps. `Device.core` forgets exactly these, so that `(d.notify ..).core = d.core`, and
a value commit is, up to `core`, the list of its stores.

* `Device.core`, `Device.shape` : the device without the traces of output, and without the values
  of the scalar classes in addition.
* `Device.commitWrites` : the values a commit stores, the object's own and the copies to citizens.
* `Device.core_commitNum` : a commit is its stores.
* `Device.Outputs` : the log grows by output events only.
-/

namespace Aes70

variable {K : Kconfig}

/-- A connection entry without its time of last transmission. -/
def Conn.session (e : Conn) : Conn := { e with lastTxUs := 0 }

/-- An object without its scalar value. -/
def Obj.eraseNum (o : Obj) : Obj := { o with num := .zero }

namespace Device

/-! ### Stores through object pointers -/

@[simp] theorem length_modifyObj (d : Device K) (i : ObjRef) (f : Obj → Obj) :
    (d.modifyObj i f).objects.length = d.objects.length := by
  simp [modifyObj]

theorem obj_modifyObj (d : Device K) (i j : ObjRef) (f : Obj → Obj) :
    (d.modifyObj i f).obj j = if i = j ∧ j < d.objects.length then f (d.obj j) else d.obj j := by
  simp only [modifyObj, obj, List.getD_eq_getElem?_getD, List.getElem?_modify]
  by_cases hj : j < d.objects.length
  · by_cases hij : i = j <;> simp [hij, hj]
  · simp [hj]

theorem obj_modifyObj_self {d : Device K} {i : ObjRef} (h : i < d.objects.length)
    (f : Obj → Obj) : (d.modifyObj i f).obj i = f (d.obj i) := by
  simp [obj_modifyObj, h]

theorem obj_modifyObj_ne {d : Device K} {i j : ObjRef} (h : i ≠ j) (f : Obj → Obj) :
    (d.modifyObj i f).obj j = d.obj j := by
  simp [obj_modifyObj, h]

/-- A projection of objects that a store does not touch is the same everywhere afterwards. -/
theorem obj_modifyObj_congr {α : Type} {f : Obj → Obj} (p : Obj → α) (h : ∀ o, p (f o) = p o)
    (d : Device K) (i j : ObjRef) : p ((d.modifyObj i f).obj j) = p (d.obj j) := by
  rw [obj_modifyObj]
  split_ifs <;> simp [h]

theorem find_lt {d : Device K} {ono : UInt32} {i : ObjRef} (h : d.find ono = some i) :
    i < d.objects.length := by
  obtain ⟨hi, -⟩ := List.findIdx?_eq_some_iff_getElem.mp h
  exact hi

theorem obj_of_find {d : Device K} {ono : UInt32} {i : ObjRef} (h : d.find ono = some i) :
    (d.obj i).ono = ono := by
  obtain ⟨hi, hp, -⟩ := List.findIdx?_eq_some_iff_getElem.mp h
  simpa [obj, hi] using hp

/-- Behind the end of the table stand blocks. -/
theorem lt_of_kind {d : Device K} {i : ObjRef} (h : (d.obj i).kind ≠ .block) :
    i < d.objects.length := by
  by_contra hi
  exact h (by simp [obj, List.getD_eq_getElem?_getD, List.getElem?_eq_none (Nat.not_lt.1 hi),
    Obj.fresh])

/-! ### The core -/

/-- The device without what sending changes: the log and the times of last transmission. -/
def core (d : Device K) : Device K := { d with conns := fun c => (d.conns c).session, log := [] }

/-- The core without the values of the scalar classes. -/
def shape (d : Device K) : Device K := { d.core with objects := d.objects.map Obj.eraseNum }

@[simp] theorem core_emit (d : Device K) (e : Event) : (d.emit e).core = d.core := rfl

theorem core_modifyConn {f : Conn → Conn} (h : ∀ e, (f e).session = e.session) (d : Device K)
    (c : Fin K.maxConnections) : (d.modifyConn c f).core = d.core := by
  simp only [core, modifyConn, Device.mk.injEq, true_and, and_true]
  funext k
  by_cases hk : k = c
  · subst hk
    simp [h]
  · simp [Function.update_of_ne hk]

@[simp] theorem core_connSend (d : Device K) (c : ℕ) (frame : Bytes) :
    (d.connSend c frame).core = d.core := by
  unfold connSend
  split_ifs
  · dsimp only
    split_ifs
    · exact core_modifyConn (fun e => by rfl) _ _
    · exact core_emit _ _
  · rfl
  · rfl

theorem core_notifySlot (i : ObjRef) (level index : UInt16) (st : Device K × List (ℕ × Bytes))
    (k : Fin K.maxSubscriptions) : (notifySlot i level index st k).1.core = st.1.core := by
  obtain ⟨d, sent⟩ := st
  simp only [notifySlot]
  split_ifs
  · split <;> simp
  · rfl

/-- The device and the frames after the slots of the table were served. -/
def notifyAll (d : Device K) (i : ObjRef) (level index : UInt16) : Device K × List (ℕ × Bytes) :=
  (List.finRange K.maxSubscriptions).foldl (notifySlot i level index) (d, [])

theorem notify_eq (d : Device K) (i : ObjRef) (level index : UInt16) :
    d.notify i level index = if d.notificationsDisabled then d else
      (d.notifyAll i level index).1.emit
        (.propertyChanged i (d.obj i) level index (d.notifyAll i level index).2) := rfl

theorem core_notifyAll (d : Device K) (i : ObjRef) (level index : UInt16) :
    (d.notifyAll i level index).1.core = d.core :=
  List.foldlRecOn (motive := fun st => st.1.core = d.core) _ _ rfl
    fun st ih k _ => (core_notifySlot i level index st k).trans ih

@[simp] theorem core_notify (d : Device K) (i : ObjRef) (level index : UInt16) :
    (d.notify i level index).core = d.core := by
  rw [notify_eq]
  split_ifs
  · rfl
  · rw [core_emit, core_notifyAll]

@[simp] theorem core_controlChanged (d : Device K) (i : ObjRef) :
    (d.controlChanged i).core = d.core := by
  unfold controlChanged
  split_ifs <;> rfl

section Projections

variable {d d' : Device K} (h : d.core = d'.core)
include h

theorem objects_eq_of_core : d.objects = d'.objects := by
  have := congrArg Device.objects h
  exact this

theorem obj_eq_of_core (i : ObjRef) : d.obj i = d'.obj i := congrArg (·.obj i) h

theorem subs_eq_of_core : d.subs = d'.subs := by
  have := congrArg Device.subs h
  exact this

end Projections

/-! ### Value commits -/

/-- Store a value. -/
def writeNum (d : Device K) (w : ObjRef × F64) : Device K :=
  d.modifyObj w.1 fun o => { o with num := w.2 }

/-- Store values one after the other. -/
def writeNums (d : Device K) (ws : List (ObjRef × F64)) : Device K := ws.foldl writeNum d

@[simp] theorem length_writeNums (d : Device K) (ws : List (ObjRef × F64)) :
    (d.writeNums ws).objects.length = d.objects.length :=
  List.foldlRecOn (motive := fun d' : Device K => d'.objects.length = d.objects.length) _ _ rfl
    fun d' ih w _ => (length_modifyObj d' w.1 _).trans ih

theorem writeNums_append (d : Device K) (ws ws' : List (ObjRef × F64)) :
    d.writeNums (ws ++ ws') = (d.writeNums ws).writeNums ws' := List.foldl_append

/-- Stores change nothing but objects. -/
theorem writeNums_eq (d : Device K) (ws : List (ObjRef × F64)) :
    d.writeNums ws = { d with objects := (d.writeNums ws).objects } :=
  List.foldlRecOn (motive := fun d' : Device K => d' = { d with objects := d'.objects }) _ _ rfl
    fun d' ih w _ => by
      rw [writeNum, modifyObj]
      conv_lhs => rw [ih]

theorem core_writeNums (d : Device K) (ws : List (ObjRef × F64)) :
    (d.writeNums ws).core = d.core.writeNums ws := by
  induction ws generalizing d with
  | nil => rfl
  | cons w ws ih => exact ih (d.writeNum w)

/-- The last value a list of stores leaves in an object. -/
def lastWrite (ws : List (ObjRef × F64)) (i : ObjRef) : Option F64 :=
  (ws.reverse.find? fun w => w.1 == i).map Prod.snd

theorem lastWrite_concat (ws : List (ObjRef × F64)) (w : ObjRef × F64) (i : ObjRef) :
    lastWrite (ws ++ [w]) i = if w.1 = i then some w.2 else lastWrite ws i := by
  by_cases h : w.1 = i <;> simp [lastWrite, h]

theorem obj_writeNum {d : Device K} {w : ObjRef × F64} {i : ObjRef} (hi : i < d.objects.length) :
    (d.writeNum w).obj i = if w.1 = i then { d.obj i with num := w.2 } else d.obj i := by
  simp [writeNum, obj_modifyObj, hi]

/-- After a list of stores an object holds the last value stored into it. -/
theorem obj_writeNums (d : Device K) (ws : List (ObjRef × F64)) {i : ObjRef}
    (hi : i < d.objects.length) :
    (d.writeNums ws).obj i = { d.obj i with num := (lastWrite ws i).getD (d.obj i).num } := by
  induction ws using List.reverseRecOn with
  | nil => rfl
  | append_singleton ws w ih =>
    rw [writeNums_append, lastWrite_concat]
    change ((d.writeNums ws).writeNum w).obj i = _
    rw [obj_writeNum (by simpa using hi), ih]
    split_ifs <;> rfl

theorem eraseNum_obj_writeNums (d : Device K) (ws : List (ObjRef × F64)) (i : ObjRef) :
    ((d.writeNums ws).obj i).eraseNum = (d.obj i).eraseNum :=
  List.foldlRecOn (motive := fun d' : Device K => (d'.obj i).eraseNum = (d.obj i).eraseNum) _ _ rfl
    fun d' ih w _ => by
      rw [writeNum, obj_modifyObj_congr Obj.eraseNum fun _ => by rfl, ih]

/-! ### The shape -/

theorem shape_eq_of_core {d d' : Device K} (h : d.core = d'.core) : d.shape = d'.shape := by
  have := congrArg shape h
  exact this

theorem obj_shape (d : Device K) (i : ObjRef) : d.shape.obj i = (d.obj i).eraseNum := by
  simp only [shape, obj, core, List.getD_eq_getElem?_getD, List.getElem?_map]
  cases d.objects[i]? <;> rfl

@[simp] theorem length_shape (d : Device K) : d.shape.objects.length = d.objects.length := by
  simp [shape]

theorem find_shape (d : Device K) (ono : UInt32) : d.shape.find ono = d.find ono := by
  simp only [find, shape, core, List.findIdx?_map]
  rfl

theorem groupTargets_shape (d : Device K) (w : ObjRef) (g : GrouperPriv) (gi : Fin 16) :
    d.shape.groupTargets w g gi = d.groupTargets w g gi := by
  simp only [groupTargets, find_shape, obj_shape]
  rfl

theorem fanTargets_shape (d : Device K) (w : ObjRef) : d.shape.fanTargets w = d.fanTargets w := by
  simp only [fanTargets, groupTargets_shape, obj_shape, length_shape]
  rfl

theorem map_eraseNum_writeNum (d : Device K) (w : ObjRef × F64) :
    (d.writeNum w).objects.map Obj.eraseNum = d.objects.map Obj.eraseNum := by
  apply List.ext_getElem?
  intro k
  simp only [writeNum, modifyObj, List.getElem?_map, List.getElem?_modify]
  cases d.objects[k]? with
  | none => rfl
  | some o =>
    by_cases hk : w.1 = k
    · simp [hk, Obj.eraseNum]
    · simp [hk]

theorem shape_writeNum (d : Device K) (w : ObjRef × F64) : (d.writeNum w).shape = d.shape := by
  rw [shape, map_eraseNum_writeNum]
  rfl

theorem shape_writeNums (d : Device K) (ws : List (ObjRef × F64)) :
    (d.writeNums ws).shape = d.shape :=
  List.foldlRecOn (motive := fun d' : Device K => d'.shape = d.shape) _ _ rfl
    fun d' ih w _ => (shape_writeNum d' w).trans ih

/-! ### Commits as stores -/

/-- Object `j` is the proxy of group `gi` of the grouper `k`. -/
def IsProxy (d : Device K) (k : ObjRef) (gi : Fin 16) (j : ObjRef) : Prop :=
  (d.obj k).kind = .grouper ∧ ∃ g, (d.obj k).priv = .grouper g ∧ (g.groups gi).used = true ∧
    (g.groups gi).proxyOno = (d.obj j).ono

/-- What the three loops find. -/
theorem mem_fanTargets_iff {d : Device K} {j c : ObjRef} : c ∈ d.fanTargets j ↔
    ∃ k < d.objects.length, ∃ gi, d.IsProxy k gi j ∧ ∃ g ci, (d.obj k).priv = .grouper g ∧
      ((g.citizens ci).used = true ∧ (g.citizens ci).online = true ∧ g.enrolled gi ci = true) ∧
        d.find (g.citizens ci).ono = some c ∧ (d.obj c).kind = (d.obj j).kind ∧ c ≠ j := by
  constructor
  · intro h
    obtain ⟨k, hk, hmem⟩ := List.mem_flatMap.1 h
    split at hmem
    next g hkind hp =>
      obtain ⟨gi, -, hgroup⟩ := List.mem_flatMap.1 hmem
      split_ifs at hgroup with hproxy
      · obtain ⟨ci, -, hci⟩ := List.mem_filterMap.1 hgroup
        split_ifs at hci with hused
        obtain ⟨hfind, hsame⟩ := Option.filter_eq_some_iff.1 hci
        simp only [Bool.and_eq_true, and_assoc] at hused
        exact ⟨k, List.mem_range.1 hk, gi, ⟨hkind, g, hp, hproxy⟩, g, ci, hp, hused, hfind,
          of_decide_eq_true hsame⟩
      · exact absurd hgroup List.not_mem_nil
    · exact absurd hmem List.not_mem_nil
  · rintro ⟨k, hk, gi, ⟨hkind, g, hp, hproxy⟩, g', ci, hp', hused, hfind, hsame⟩
    obtain rfl := Priv.grouper.inj (hp.symm.trans hp')
    refine List.mem_flatMap.2 ⟨k, List.mem_range.2 hk, ?_⟩
    rw [hkind, hp]
    refine List.mem_flatMap.2 ⟨gi, List.mem_finRange gi, ?_⟩
    rw [if_pos hproxy]
    refine List.mem_filterMap.2 ⟨ci, List.mem_finRange ci, ?_⟩
    rw [if_pos (by simp [hused]), hfind]
    exact Option.filter_eq_some_iff.2 ⟨rfl, decide_eq_true hsame⟩

theorem mem_fanTargets {d : Device K} {w c : ObjRef} (h : c ∈ d.fanTargets w) :
    c < d.objects.length ∧ (d.obj c).kind = (d.obj w).kind ∧ c ≠ w := by
  obtain ⟨_, _, _, _, _, _, _, _, hfind, hsame⟩ := mem_fanTargets_iff.1 h
  exact ⟨find_lt hfind, hsame⟩

/-- The objects a committed value of `w` is copied to. -/
def copies (d : Device K) (w : ObjRef) : List ObjRef :=
  if (primaryProperty (d.obj w).kind).isSome then d.fanTargets w else []

/-- The values a commit of `v` by a controller stores: the object's own, then the copies. -/
def commitWrites (d : Device K) (i : ObjRef) (v : F64) : List (ObjRef × F64) :=
  (i, v) :: (d.copies i).map fun c => (c, v)

theorem core_copyToCitizen (w : ObjRef) (level index : UInt16) (d : Device K) (c : ObjRef) :
    (copyToCitizen w level index d c).core = (d.writeNum (c, (d.obj w).num)).core := by
  simp only [copyToCitizen, core_controlChanged, core_notify]
  rfl

theorem core_foldl_copyToCitizen {w : ObjRef} (level index : UInt16) {l : List ObjRef}
    (hl : ∀ c ∈ l, c ≠ w) (d : Device K) :
    (l.foldl (copyToCitizen w level index) d).core
      = (d.writeNums (l.map fun c => (c, (d.obj w).num))).core := by
  induction l generalizing d with
  | nil => rfl
  | cons c l ih =>
    obtain ⟨hc, hl⟩ := List.forall_mem_cons.mp hl
    have hstep := core_copyToCitizen w level index d c
    have hnum : ((copyToCitizen w level index d c).obj w).num = (d.obj w).num := by
      rw [obj_eq_of_core hstep, writeNum, obj_modifyObj_ne hc]
    rw [List.foldl_cons, ih hl, hnum, core_writeNums, hstep, ← core_writeNums]
    rfl

theorem core_grouperOnCommit (d : Device K) (w : ObjRef) :
    (d.grouperOnCommit w).core
      = (d.writeNums ((d.copies w).map fun c => (c, (d.obj w).num))).core := by
  unfold grouperOnCommit copies
  split
  · next h =>
    simp only [h, Option.isSome_some, if_true]
    exact core_foldl_copyToCitizen _ _ (fun c hc => (mem_fanTargets hc).2.2) d
  · next h => simp [h, writeNums]

theorem copies_eq_of_shape {d d' : Device K} (h : d.shape = d'.shape) (w : ObjRef) :
    d.copies w = d'.copies w := by
  have hk : (d.obj w).kind = (d'.obj w).kind := by
    simpa [obj_shape, Obj.eraseNum] using congrArg (fun e : Device K => (e.obj w).kind) h
  rw [copies, copies, hk, ← fanTargets_shape, h, fanTargets_shape]

/-- **A controller's commit is its stores**, up to the traces of notifications and callbacks. -/
theorem core_commitNum {d : Device K} {i : ObjRef} (hi : i < d.objects.length) (v : F64)
    (level index : UInt16) :
    (d.commitNum i v level index true).core = (d.writeNums (d.commitWrites i v)).core := by
  have hcore : (((d.modifyObj i fun o => { o with num := v }).notify i level
      index).controlChanged i).core = (d.writeNum (i, v)).core := by
    rw [core_controlChanged, core_notify]
    rfl
  simp only [commitNum, if_true]
  rw [core_grouperOnCommit, obj_eq_of_core hcore, obj_writeNum hi, if_pos rfl, core_writeNums,
    hcore, ← core_writeNums, copies_eq_of_shape (shape_eq_of_core hcore),
    copies_eq_of_shape (shape_writeNum d _)]
  rfl

theorem core_commitNum_app (d : Device K) (i : ObjRef) (v : F64) (level index : UInt16) :
    (d.commitNum i v level index false).core = (d.writeNum (i, v)).core := by
  simp [commitNum, writeNum]

theorem core_commitStr (d : Device K) (i : ObjRef) (s : Bytes) (level index : UInt16) (b : Bool) :
    (d.commitStr i s level index b).core
      = (d.modifyObj i fun o => { o with str := some s }).core := by
  unfold commitStr
  split_ifs <;> simp

/-! ### Changes seen through an object -/

section Changes

variable {d d' : Device K} {i : ObjRef}

theorem ne_of_obj (i : ObjRef) (h : d'.obj i ≠ d.obj i) : d' ≠ d := fun he => h (by rw [he])

@[simp] theorem obj_notify (d : Device K) (i j : ObjRef) (level index : UInt16) :
    (d.notify i level index).obj j = d.obj j := obj_eq_of_core (core_notify d i level index) j

@[simp] theorem obj_controlChanged (d : Device K) (i j : ObjRef) :
    (d.controlChanged i).obj j = d.obj j := obj_eq_of_core (core_controlChanged d i) j

/-- A store that changes what `p` sees of the object changes the device. -/
theorem modifyObj_ne {α : Type} (p : Obj → α) (hi : i < d.objects.length) {f : Obj → Obj}
    (h : p (f (d.obj i)) ≠ p (d.obj i)) : d.modifyObj i f ≠ d :=
  ne_of_obj i fun he => h (by rw [← obj_modifyObj_self hi f, he])

theorem modifyObj_priv_ne {p p' : Priv} (hi : i < d.objects.length) (hp : (d.obj i).priv = p)
    (h : p' ≠ p) : (d.modifyObj i fun o => { o with priv := p' }) ≠ d :=
  modifyObj_ne Obj.priv hi (by simpa [hp] using h)

theorem modifyObj_eq_self {f : Obj → Obj} (h : f (d.obj i) = d.obj i) : d.modifyObj i f = d := by
  have hobjects : d.objects.modify i f = d.objects := by
    refine List.ext_getElem (by simp) fun k hk hk' => ?_
    rw [List.getElem_modify]
    split_ifs with hik
    · subst hik
      simpa [obj, hk'] using h
    · rfl
  rw [modifyObj, hobjects]

theorem notify_modifyObj_ne {α : Type} (p : Obj → α) (hi : i < d.objects.length) {f : Obj → Obj}
    (h : p (f (d.obj i)) ≠ p (d.obj i)) (level index : UInt16) :
    (d.modifyObj i f).notify i level index ≠ d :=
  ne_of_obj i fun he => h (by rw [← obj_modifyObj_self hi f, ← obj_notify _ i, he])

/-- A commit leaves the committed value in its object, whatever else it copies. -/
theorem num_commitNum (hi : i < d.objects.length) (v : F64) (level index : UInt16) :
    ((d.commitNum i v level index true).obj i).num = v := by
  have hown : ((d.copies i).map fun c => (c, v)).reverse.find? (fun w => w.1 == i) = none := by
    simp only [List.find?_eq_none, List.mem_reverse, List.mem_map, beq_iff_eq]
    rintro w ⟨c, hc, rfl⟩
    unfold copies at hc
    split_ifs at hc
    · exact (mem_fanTargets hc).2.2
    · simp at hc
  rw [obj_eq_of_core (core_commitNum hi v level index), obj_writeNums _ _ hi]
  simp [lastWrite, commitWrites, hown]

theorem commitNum_ne (hi : i < d.objects.length) {v : F64} (h : v ≠ (d.obj i).num)
    (level index : UInt16) : d.commitNum i v level index true ≠ d := fun he => h (by
  rw [← num_commitNum hi v level index, he])

theorem commitStr_ne (hi : i < d.objects.length) {s : Bytes} (h : some s ≠ (d.obj i).str)
    (level index : UInt16) : d.commitStr i s level index true ≠ d :=
  ne_of_obj i fun he => h (by
    rw [← he, obj_eq_of_core (core_commitStr d i s level index true), obj_modifyObj_self hi])

end Changes

/-! ### The log -/

end Device

/-- Notifications, callbacks and transmissions, as opposed to the events of a session. -/
def Event.isOutput : Event → Bool
  | .propertyChanged .. | .controlChanged .. | .tx .. => true
  | _ => false

namespace Device

/-- The log of `d'` extends that of `d` by output events. -/
def Outputs (d d' : Device K) : Prop := ∃ es, d'.log = d.log ++ es ∧ ∀ e ∈ es, e.isOutput = true

namespace Outputs

variable {d d' d'' : Device K}

theorem of_log_eq (h : d'.log = d.log) : Outputs d d' := ⟨[], by simp [h], by simp⟩

@[refl] theorem refl (d : Device K) : Outputs d d := of_log_eq rfl

theorem trans (h : Outputs d d') (h' : Outputs d' d'') : Outputs d d'' := by
  obtain ⟨es, he, ho⟩ := h
  obtain ⟨es', he', ho'⟩ := h'
  refine ⟨es ++ es', by rw [he', he, List.append_assoc], fun e hmem => ?_⟩
  exact (List.mem_append.mp hmem).elim (ho e) (ho' e)

theorem emit (d : Device K) {e : Event} (h : e.isOutput = true) : Outputs d (d.emit e) :=
  ⟨[e], rfl, by simpa using h⟩

end Outputs

theorem outputs_connSend (d : Device K) (c : ℕ) (frame : Bytes) :
    Outputs d (d.connSend c frame) := by
  unfold connSend
  split_ifs
  · dsimp only
    split_ifs
    · exact (Outputs.emit d rfl).trans (.of_log_eq rfl)
    · exact Outputs.emit d rfl
  · rfl
  · rfl

theorem outputs_notifyAll (d : Device K) (i : ObjRef) (level index : UInt16) :
    Outputs d (d.notifyAll i level index).1 :=
  List.foldlRecOn (motive := fun st : Device K × List (ℕ × Bytes) => Outputs d st.1) _ _
      (.refl d) fun st ih k _ => by
    refine ih.trans ?_
    simp only [notifySlot]
    split_ifs
    · split
      · exact outputs_connSend _ _ _
      · rfl
    · rfl

theorem outputs_notify (d : Device K) (i : ObjRef) (level index : UInt16) :
    Outputs d (d.notify i level index) := by
  rw [notify_eq]
  split_ifs
  · rfl
  · exact (outputs_notifyAll d i level index).trans (.emit _ rfl)

theorem outputs_controlChanged (d : Device K) (i : ObjRef) : Outputs d (d.controlChanged i) := by
  unfold controlChanged
  split_ifs
  · exact .emit d rfl
  · rfl

theorem outputs_modifyObj (d : Device K) (i : ObjRef) (f : Obj → Obj) :
    Outputs d (d.modifyObj i f) := .of_log_eq rfl

/-- Recording a list of events. -/
theorem foldl_emit (es : List Event) (d : Device K) :
    (es.foldl emit d).log = d.log ++ es ∧ (es.foldl emit d).net = d.net := by
  induction es generalizing d with
  | nil => simp
  | cons e es ih =>
    obtain ⟨hlog, hnet⟩ := ih (d.emit e)
    exact ⟨by rw [List.foldl_cons, hlog, emit, List.append_assoc]; rfl, hnet⟩

/-! ### Preorders that commits respect -/

/-- A preorder on devices that respects the three things a commit is made of: a store into an
object, a notification, a callback. -/
structure CommitOrder (R : Device K → Device K → Prop) : Prop where
  refl : ∀ d, R d d
  trans : ∀ {d d' d''}, R d d' → R d' d'' → R d d''
  modifyObj : ∀ d i f, R d (d.modifyObj i f)
  notify : ∀ d i level index, R d (d.notify i level index)
  controlChanged : ∀ d i, R d (d.controlChanged i)

namespace CommitOrder

variable {R : Device K → Device K → Prop} (hR : CommitOrder R)
include hR

theorem foldl {α : Type} {f : Device K → α → Device K} (hf : ∀ d a, R d (f d a)) (l : List α)
    (d : Device K) : R d (l.foldl f d) :=
  List.foldlRecOn (motive := fun d' => R d d') _ _ (hR.refl d)
    fun d' ih a _ => hR.trans ih (hf d' a)

theorem grouperOnCommit (d : Device K) (w : ObjRef) : R d (d.grouperOnCommit w) := by
  unfold Device.grouperOnCommit
  split
  · exact hR.foldl (fun d c => hR.trans (hR.trans (hR.modifyObj _ _ _) (hR.notify _ _ _ _))
      (hR.controlChanged _ _)) _ d
  · exact hR.refl d

theorem commitNum (d : Device K) (i : ObjRef) (v : F64) (level index : UInt16) (b : Bool) :
    R d (d.commitNum i v level index b) := by
  have h := hR.trans (hR.modifyObj d i fun o => { o with num := v }) (hR.notify _ i level index)
  unfold Device.commitNum
  dsimp only
  split_ifs
  · exact hR.trans (hR.trans h (hR.controlChanged _ _)) (hR.grouperOnCommit _ _)
  · exact h

theorem commitStr (d : Device K) (i : ObjRef) (s : Bytes) (level index : UInt16) (b : Bool) :
    R d (d.commitStr i s level index b) := by
  have h := hR.trans (hR.modifyObj d i fun o => { o with str := some s })
    (hR.notify _ i level index)
  unfold Device.commitStr
  dsimp only
  split_ifs
  · exact hR.trans h (hR.controlChanged _ _)
  · exact h

end CommitOrder

theorem commitOrder_outputs : CommitOrder (Outputs (K := K)) where
  refl := Outputs.refl
  trans := Outputs.trans
  modifyObj := outputs_modifyObj
  notify := outputs_notify
  controlChanged := outputs_controlChanged

end Device

end Aes70
