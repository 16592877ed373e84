import Aes70.Device.Core
import Aes70.Machine.Basic
import Aes70.Resource.Allocator

/-!
# The heap

The blocks of memory behind a device and its objects: what the constructors allocate, and what
`aes70_device_stop` frees. Every `calloc`, `strdup` and `realloc` may fail.

* `HeapObj`, `HeapDevice` : the pointers of an object and of a device.
* `HeapDevice.objectAlloc`, `HeapObj.addMember`, `HeapObj.furnish` : what a constructor allocates.
* `HeapDevice.deviceStart`, `HeapDevice.deviceStop` : the device itself.
* `mirrors_objectAlloc` : as long as memory lasts, the registry is that of `Device.objectAlloc`.
-/

namespace Aes70

open Resource

/-- Blocks allocated and freed so far. -/
abbrev Blocks := List (Act ℕ)

/-- What `struct aes70_object` points to. -/
structure HeapObj where
  /-- The object itself. -/
  self : ℕ
  kind : Kind
  role : ℕ
  label : Option ℕ
  str : Option ℕ
  children : Option ℕ
  /-- How many members the array was allocated for. -/
  room : ℕ
  childCap : UInt16
  childCount : UInt16
  priv : Option ℕ
  /-- The array `sw_names`, and the first `sw_count` pointers in it. -/
  swNames : Option (ℕ × List (Option ℕ))

/-- What `struct aes70_device` points to. -/
structure HeapDevice where
  self : ℕ
  lock : Option ℕ
  cmdQ : Option ℕ
  objects : List HeapObj

/-- What the allocations of a constructor return, as far as it comes to them. -/
structure CreateBlocks where
  self : Option ℕ
  role : Option ℕ
  /-- The array of members of the parent. -/
  children : Option ℕ
  priv : Option ℕ
  str : Option ℕ
  swNames : Option ℕ
  /-- The copies of the position names, if there are any. -/
  names : List (Option ℕ)

/-- What the allocations of `aes70_device_start` return. -/
structure StartBlocks where
  device : Option ℕ
  lock : Option ℕ
  cmdQ : Option ℕ
  deviceManager : Option ℕ × Option ℕ
  subscriptionManager : Option ℕ × Option ℕ
  rootBlock : Option ℕ × Option ℕ
  /-- `aes70_transport_start`. -/
  transport : Bool

/-! ### Objects -/

namespace HeapObj

/-- The object `calloc` and the first stores of `aes70_object_new` leave. -/
def fresh (self : ℕ) (kind : Kind) (role : ℕ) : HeapObj :=
  ⟨self, kind, role, none, none, none, 0, 0, 0, none, none⟩

/-- The pointers behind `sw_names`. -/
def names (o : HeapObj) : List (Option ℕ) :=
  match o.swNames with
  | some (array, names) => names ++ [some array]
  | none => []

/-- The next capacity of an array of members. -/
def nextCap (cap : UInt16) : UInt16 := if cap ≠ 0 then cap * 2 else 4

/-- `aes70_block_add_member`, on the block. -/
def addMember (o : HeapObj) (children : Option ℕ) (t : Blocks) : HeapObj × Blocks :=
  if o.kind ≠ .block then (o, t)
  else if o.childCap ≤ o.childCount then
    let cap := nextCap o.childCap
    let t := realloc t o.children children
    if children.isNone then (o, t)
    else ({ o with
      children, room := cap.toNat, childCap := cap, childCount := o.childCount + 1 }, t)
  else ({ o with childCount := o.childCount + 1 }, t)

/-- What the constructor of the kind allocates for a new object: `aes70_dsp_init`,
`aes70_grouper_init`, `aes70_matrix_init`, `aes70_switch_create`, `aes70_string_create`. -/
def furnish (o : HeapObj) (calls : CreateBlocks) (t : Blocks) : HeapObj × Blocks :=
  match o.kind with
  | .dynamics | .filterClassical | .filterParametric | .panBalance | .signalGen | .grouper
  | .matrix => ({ o with priv := calls.priv }, alloc t calls.priv)
  | .switch =>
    if calls.names = [] then (o, t) else
      match calls.swNames with
      | none => (o, t)
      | some array =>
        ({ o with swNames := some (array, calls.names) },
          allocAll (alloc t (some array)) calls.names)
  | .string => ({ o with str := calls.str }, alloc t calls.str)
  | _ => (o, t)

/-- `aes70_object_free`. -/
def objectFree (o : HeapObj) (t : Blocks) : Blocks :=
  let t := free t (some o.role)
  let t := free t o.label
  let t := free t o.str
  let t := free t o.children
  let t := free t o.priv
  let t := freeAll t o.names
  free t (some o.self)

/-- The blocks of an object. -/
def owned (o : HeapObj) : Multiset ℕ :=
  held (some o.self) + held (some o.role) + held o.label + held o.str + held o.children +
    held o.priv + heldAll o.names

/-- The members of a block are no more than there are objects, and they fit its array. -/
structure Fits (o : HeapObj) (objects : ℕ) : Prop where
  le_objects : o.childCount.toNat ≤ objects
  le_cap : o.childCount.toNat ≤ o.childCap.toNat
  room : o.room = o.childCap.toNat

end HeapObj

section Object

variable {o : HeapObj} {t : Blocks} {k : Multiset ℕ} {n : ℕ}

/-- Nothing but its role has been allocated for the object. -/
structure HeapObj.Bare (o : HeapObj) : Prop where
  str : o.str = none
  priv : o.priv = none
  swNames : o.swNames = none

theorem bare_addMember (h : o.Bare) (children : Option ℕ) : (o.addMember children t).1.Bare := by
  unfold HeapObj.addMember
  dsimp only
  split_ifs <;> exact ⟨h.str, h.priv, h.swNames⟩

theorem replay_addMember (h : replay t 0 = some (o.owned + k)) (children : Option ℕ) :
    replay (o.addMember children t).2 0 = some ((o.addMember children t).1.owned + k) := by
  have hsplit : replay t 0 = some (held o.children + (held (some o.self) + held (some o.role) +
      held o.label + held o.str + held o.priv + heldAll o.names + k)) := by
    rw [h, HeapObj.owned]
    exact congrArg some (by abel)
  have hmoved := replay_realloc (q := children) hsplit
  unfold HeapObj.addMember
  dsimp only
  split_ifs with hblock hfull hnone
  · exact h
  · obtain rfl := Option.isNone_iff_eq_none.1 hnone
    exact h
  · obtain ⟨p, rfl⟩ := Option.ne_none_iff_exists'.1 (mt Option.isNone_iff_eq_none.2 hnone)
    refine hmoved.trans (congrArg some ?_)
    change held (some p) + _ = _
    rw [HeapObj.owned]
    dsimp only [HeapObj.names]
    abel
  · exact h

theorem replay_furnish (h : replay t 0 = some (o.owned + k)) (hbare : o.Bare)
    (calls : CreateBlocks) :
    replay (o.furnish calls t).2 0 = some ((o.furnish calls t).1.owned + k) := by
  obtain ⟨self, kind, role, label, str, children, room, childCap, childCount, priv, swNames⟩ := o
  obtain rfl : str = none := hbare.str
  obtain rfl : priv = none := hbare.priv
  obtain rfl : swNames = none := hbare.swNames
  have hpriv : replay (alloc t calls.priv) 0 = some (HeapObj.owned ⟨self, kind, role, label, none,
      children, room, childCap, childCount, calls.priv, none⟩ + k) := by
    refine (replay_alloc h).trans (congrArg some ?_)
    dsimp only [HeapObj.owned, HeapObj.names, held_none]
    abel
  have hstr : replay (alloc t calls.str) 0 = some (HeapObj.owned ⟨self, kind, role, label,
      calls.str, children, room, childCap, childCount, none, none⟩ + k) := by
    refine (replay_alloc h).trans (congrArg some ?_)
    dsimp only [HeapObj.owned, HeapObj.names, held_none]
    abel
  have hnames (array : ℕ) : replay (allocAll (alloc t (some array)) calls.names) 0 =
      some (HeapObj.owned ⟨self, kind, role, label, none, children, room, childCap, childCount,
        none, some (array, calls.names)⟩ + k) := by
    refine (replay_allocAll (replay_alloc h)).trans (congrArg some ?_)
    dsimp only [HeapObj.owned, HeapObj.names, held_none]
    rw [heldAll_append, heldAll_cons, heldAll_nil]
    abel
  cases kind with
  | dynamics | filterClassical | filterParametric | panBalance | signalGen | grouper | matrix =>
    exact hpriv
  | string => exact hstr
  | switch =>
    dsimp only [HeapObj.furnish]
    split_ifs with hnone
    · exact h
    · cases calls.swNames with
      | none => exact h
      | some array => exact hnames array
  | _ => exact h

theorem replay_objectFree (h : replay t 0 = some (o.owned + k)) :
    replay (o.objectFree t) 0 = some k := by
  have hall : replay t 0 = some (held (some o.role) + (held o.label + (held o.str +
      (held o.children + (held o.priv + (heldAll o.names + (held (some o.self) + k))))))) := by
    rw [h, HeapObj.owned]
    exact congrArg some (by abel)
  have hpriv := replay_free (replay_free (replay_free (replay_free (replay_free hall))))
  exact replay_free (replay_freeAll hpriv)

theorem fits_fresh (self : ℕ) (kind : Kind) (role : ℕ) : (HeapObj.fresh self kind role).Fits n :=
  ⟨Nat.zero_le n, Nat.le_refl 0, rfl⟩

theorem HeapObj.Fits.mono {m : ℕ} (h : o.Fits n) (hle : n ≤ m) : o.Fits m :=
  ⟨h.le_objects.trans hle, h.le_cap, h.room⟩

/-- The capacity grows, unless it wraps. -/
theorem le_nextCap {cap : UInt16} (h : cap.toNat < 2 ^ 15) :
    cap.toNat + 1 ≤ (HeapObj.nextCap cap).toNat := by
  unfold HeapObj.nextCap
  split_ifs with hzero
  · have hpos : cap.toNat ≠ 0 := fun hnat => hzero (UInt16.toNat_inj.1 hnat)
    have hdouble : (cap * 2).toNat = cap.toNat * 2 := by
      rw [UInt16.toNat_mul]
      exact Nat.mod_eq_of_lt (by simp; omega)
    omega
  · obtain rfl := not_not.1 hzero
    decide

theorem toNat_childCount_succ (h : o.Fits n) (hn : n < 2 ^ 15) :
    (o.childCount + 1).toNat = o.childCount.toNat + 1 := by
  have hcount := h.le_objects
  rw [UInt16.toNat_add]
  exact Nat.mod_eq_of_lt (by simp; omega)

/-- A block that is full gets a larger array; its size does not wrap. -/
theorem fits_addMember (h : o.Fits n) (hn : n < 2 ^ 15) (children : Option ℕ) :
    (o.addMember children t).1.Fits (n + 1) := by
  have hcount := h.le_objects
  have hnext := toNat_childCount_succ h hn
  unfold HeapObj.addMember
  dsimp only
  split_ifs with hblock hfull hnone
  · exact h.mono (Nat.le_succ n)
  · exact h.mono (Nat.le_succ n)
  · have hle : o.childCap.toNat ≤ o.childCount.toNat := UInt16.le_iff_toNat_le.1 hfull
    have hcap := @le_nextCap o.childCap (by omega)
    have hle_cap := h.le_cap
    exact ⟨by dsimp only; omega, by dsimp only; omega, rfl⟩
  · have hlt : o.childCount.toNat < o.childCap.toNat :=
      Nat.lt_of_not_le fun hle => hfull (UInt16.le_iff_toNat_le.2 hle)
    exact ⟨by dsimp only; omega, by dsimp only; omega, h.room⟩

theorem fits_furnish (h : o.Fits n) (calls : CreateBlocks) : (o.furnish calls t).1.Fits n := by
  unfold HeapObj.furnish
  cases o.kind with
  | switch =>
    dsimp only
    split_ifs with hnone
    · exact h
    · cases calls.swNames with
      | none => exact h
      | some array => exact ⟨h.le_objects, h.le_cap, h.room⟩
  | _ => exact ⟨h.le_objects, h.le_cap, h.room⟩

end Object

/-! ### Devices -/

namespace HeapDevice

/-- `aes70_object_new`. -/
def objectNew (K : Kconfig) (d : HeapDevice) (kind : Kind) (self role : Option ℕ) (t : Blocks) :
    Option ObjRef × HeapDevice × Blocks :=
  if K.maxObjects ≤ d.objects.length then (none, d, t) else
    match self with
    | none => (none, d, t)
    | some p =>
      let t := alloc t (some p)
      match role with
      | none => (none, d, free t (some p))
      | some r => (some d.objects.length, { d with objects := d.objects ++ [.fresh p kind r] },
          alloc t (some r))

/-- An object is worked on. -/
def onObject (d : HeapDevice) (i : ObjRef) (f : HeapObj → Blocks → HeapObj × Blocks) (t : Blocks) :
    HeapDevice × Blocks :=
  match d.objects[i]? with
  | none => (d, t)
  | some o => ({ d with objects := d.objects.set i (f o t).1 }, (f o t).2)

/-- `aes70_object_alloc`; the root block is the third object. -/
def objectAlloc (K : Kconfig) (d : HeapDevice) (kind : Kind) (parent : Option ObjRef)
    (calls : CreateBlocks) (t : Blocks) : Option ObjRef × HeapDevice × Blocks :=
  let block := parent.getD 2
  let (i, d, t) := d.objectNew K kind calls.self calls.role t
  if i.isNone then (i, d, t) else (i, d.onObject block (·.addMember calls.children) t)

/-- A constructor: `aes70_object_alloc`, and what the kind of the object needs. -/
def create (K : Kconfig) (d : HeapDevice) (kind : Kind) (parent : Option ObjRef)
    (calls : CreateBlocks) (t : Blocks) : HeapDevice × Blocks :=
  let (i, d, t) := d.objectAlloc K kind parent calls t
  match i with
  | none => (d, t)
  | some i => d.onObject i (·.furnish calls) t

/-- The end of `aes70_device_stop`. -/
def deviceStop (d : HeapDevice) (t : Blocks) : Blocks :=
  let t := d.objects.foldl (fun t o => o.objectFree t) t
  let t := free t d.cmdQ
  let t := free t d.lock
  free t (some d.self)

/-- `aes70_device_start`; the device, unless the start fails. -/
def deviceStart (K : Kconfig) (calls : StartBlocks) (t : Blocks) : Option HeapDevice × Blocks :=
  match calls.device with
  | none => (none, t)
  | some p =>
    let d : HeapDevice := ⟨p, calls.lock, calls.cmdQ, []⟩
    let t := alloc (alloc (alloc t (some p)) calls.lock) calls.cmdQ
    if calls.lock.isNone || calls.cmdQ.isNone then (none, d.deviceStop t) else
      let (manager, d, t) := d.objectNew K .deviceManager calls.deviceManager.1
        calls.deviceManager.2 t
      let (subscriptions, d, t) := d.objectNew K .subscriptionManager calls.subscriptionManager.1
        calls.subscriptionManager.2 t
      let (root, d, t) := d.objectNew K .block calls.rootBlock.1 calls.rootBlock.2 t
      if manager.isNone || subscriptions.isNone || root.isNone || !calls.transport then
        (none, d.deviceStop t)
      else (some d, t)

/-- The blocks of a device. -/
def owned (d : HeapDevice) : Multiset ℕ :=
  held (some d.self) + held d.lock + held d.cmdQ + (d.objects.map HeapObj.owned).sum

/-- The array of every block of the tree has room for its members. -/
def Fits (d : HeapDevice) : Prop := ∀ o ∈ d.objects, o.Fits d.objects.length

/-- The device has the objects of the registry, and their blocks have as many members. -/
structure Mirrors {K : Kconfig} (d : HeapDevice) (e : Device K) : Prop where
  length : d.objects.length = e.objects.length
  kind : ∀ i, ∀ o ∈ d.objects[i]?, o.kind = (e.obj i).kind
  members : ∀ i, ∀ o ∈ d.objects[i]?, o.childCount.toNat = (e.obj i).children.length

end HeapDevice

section Devices

variable {K : Kconfig} {d e : HeapDevice} {kind : Kind} {t u : Blocks} {k : Multiset ℕ}
  {i : ObjRef} {r : Option ObjRef} {self role : Option ℕ}

/-- The outcomes of `aes70_object_new`: it allocates and frees, or there is one more object. -/
theorem objectNew_cases (K : Kconfig) (d : HeapDevice) (kind : Kind) (self role : Option ℕ)
    (t : Blocks) :
    (∃ u, d.objectNew K kind self role t = (none, d, u) ∧ (u = t ∨ ∃ p, self = some p ∧
        u = free (alloc t (some p)) (some p))) ∨
      ∃ p q, self = some p ∧ role = some q ∧ d.objects.length < K.maxObjects ∧
        d.objectNew K kind self role t = (some d.objects.length,
          { d with objects := d.objects ++ [.fresh p kind q] },
          alloc (alloc t (some p)) (some q)) := by
  unfold HeapDevice.objectNew
  split_ifs with hfull
  · exact .inl ⟨t, rfl, .inl rfl⟩
  · cases self with
    | none => exact .inl ⟨t, rfl, .inl rfl⟩
    | some p =>
      cases role with
      | none => exact .inl ⟨_, rfl, .inr ⟨p, rfl, rfl⟩⟩
      | some q => exact .inr ⟨p, q, rfl, rfl, Nat.lt_of_not_le hfull, rfl⟩

theorem replay_objectNew (h : replay t 0 = some (d.owned + k))
    (hnew : d.objectNew K kind self role t = (r, e, u)) : replay u 0 = some (e.owned + k) := by
  obtain ⟨_, heq, rfl | ⟨p, rfl, rfl⟩⟩ | ⟨p, q, rfl, rfl, -, heq⟩ :=
    objectNew_cases K d kind self role t
  · cases heq.symm.trans hnew
    exact h
  · cases heq.symm.trans hnew
    exact replay_free (replay_alloc h)
  · cases heq.symm.trans hnew
    refine (replay_alloc (replay_alloc h)).trans (congrArg some ?_)
    simp only [HeapDevice.owned, HeapObj.owned, HeapObj.fresh, HeapObj.names, List.map_append,
      List.sum_append, List.map_cons, List.map_nil, List.sum_cons, List.sum_nil, held_none,
      heldAll_nil]
    abel

theorem fits_objectNew (h : d.Fits) (hnew : d.objectNew K kind self role t = (r, e, u)) :
    e.Fits := by
  obtain ⟨_, heq, -⟩ | ⟨p, q, -, -, -, heq⟩ := objectNew_cases K d kind self role t
  · cases heq.symm.trans hnew
    exact h
  · cases heq.symm.trans hnew
    intro o ho
    have hlen : (d.objects ++ [HeapObj.fresh p kind q]).length = d.objects.length + 1 :=
      List.length_append
    dsimp only at ho ⊢
    rw [hlen]
    obtain ho | ho := List.mem_append.1 ho
    · exact (h o ho).mono (Nat.le_succ _)
    · obtain rfl := List.mem_singleton.1 ho
      exact fits_fresh p kind q

/-- What holds of one object and the rest of the heap holds of the device. -/
theorem replay_onObject {f : HeapObj → Blocks → HeapObj × Blocks}
    (h : replay t 0 = some (d.owned + k))
    (hf : ∀ o ∈ d.objects[i]?, ∀ k, replay t 0 = some (o.owned + k) →
      replay (f o t).2 0 = some ((f o t).1.owned + k)) :
    replay (d.onObject i f t).2 0 = some ((d.onObject i f t).1.owned + k) := by
  unfold HeapDevice.onObject
  cases ho : d.objects[i]? with
  | none => exact h
  | some o =>
    obtain ⟨others, hsum, hset⟩ := sum_map_set (f := HeapObj.owned) ho
    have hobj := hf o ho (held (some d.self) + held d.lock + held d.cmdQ + others + k) (by
      rw [h, HeapDevice.owned, hsum]
      exact congrArg some (by abel))
    refine hobj.trans (congrArg some ?_)
    dsimp only
    rw [HeapDevice.owned]
    dsimp only
    rw [hset]
    abel

theorem length_onObject (d : HeapDevice) (i : ObjRef) (f : HeapObj → Blocks → HeapObj × Blocks)
    (t : Blocks) : (d.onObject i f t).1.objects.length = d.objects.length := by
  unfold HeapDevice.onObject
  cases d.objects[i]? with
  | none => rfl
  | some o => exact List.length_set

theorem get_onObject (d : HeapDevice) (i j : ObjRef) (f : HeapObj → Blocks → HeapObj × Blocks)
    (t : Blocks) : (d.onObject i f t).1.objects[j]? =
      if i = j then (d.objects[i]?).map fun o => (f o t).1 else d.objects[j]? := by
  unfold HeapDevice.onObject
  cases ho : d.objects[i]? with
  | none =>
    split_ifs with hij
    · exact hij ▸ ho
    · rfl
  | some o =>
    obtain ⟨hi, rfl⟩ := List.getElem?_eq_some_iff.1 ho
    dsimp only
    rw [List.getElem?_set, if_pos hi]
    rfl

theorem mem_onObject {f : HeapObj → Blocks → HeapObj × Blocks} {o : HeapObj}
    (h : o ∈ (d.onObject i f t).1.objects) :
    o ∈ d.objects ∨ ∃ o' ∈ d.objects, o = (f o' t).1 := by
  obtain ⟨j, hj⟩ := List.mem_iff_getElem?.1 h
  rw [get_onObject] at hj
  split_ifs at hj with hij
  · obtain ⟨o', ho', rfl⟩ := Option.map_eq_some_iff.1 hj
    exact .inr ⟨o', List.mem_of_getElem? ho', rfl⟩
  · exact .inl (List.mem_of_getElem? hj)

/-- The new object of a constructor is bare, whichever block it has become a member of. -/
theorem bare_new (d : HeapDevice) (p : ℕ) (kind : Kind) (q : ℕ) (children : Option ℕ) :
    ∀ o ∈ (HeapDevice.onObject { d with objects := d.objects ++ [.fresh p kind q] } i
      (·.addMember children) t).1.objects[d.objects.length]?, o.Bare := by
  intro o ho
  have hfresh : (HeapObj.fresh p kind q).Bare := ⟨rfl, rfl, rfl⟩
  rw [Option.mem_def, get_onObject] at ho
  dsimp only at ho
  split_ifs at ho with hi
  · rw [hi, List.getElem?_concat_length] at ho
    obtain rfl := Option.some.inj ho
    exact bare_addMember hfresh children
  · rw [List.getElem?_concat_length] at ho
    obtain rfl := Option.some.inj ho
    exact hfresh

theorem objectAlloc_cases (K : Kconfig) (d : HeapDevice) (kind : Kind) (parent : Option ObjRef)
    (calls : CreateBlocks) (t : Blocks) :
    (∃ u, d.objectAlloc K kind parent calls t = (none, d, u) ∧
        d.objectNew K kind calls.self calls.role t = (none, d, u)) ∨
      ∃ p q u, d.objects.length < K.maxObjects ∧
        d.objectNew K kind calls.self calls.role t =
          (some d.objects.length, { d with objects := d.objects ++ [.fresh p kind q] }, u) ∧
        d.objectAlloc K kind parent calls t = (some d.objects.length,
          HeapDevice.onObject { d with objects := d.objects ++ [.fresh p kind q] }
            (parent.getD 2) (·.addMember calls.children) u) := by
  unfold HeapDevice.objectAlloc
  obtain ⟨u, heq, -⟩ | ⟨p, q, -, -, hroom, heq⟩ :=
    objectNew_cases K d kind calls.self calls.role t
  · rw [heq]
    exact .inl ⟨u, rfl, rfl⟩
  · rw [heq]
    exact .inr ⟨p, q, _, hroom, rfl, rfl⟩

theorem replay_create (h : replay t 0 = some (d.owned + k)) (parent : Option ObjRef)
    (calls : CreateBlocks) : replay (d.create K kind parent calls t).2 0 =
      some ((d.create K kind parent calls t).1.owned + k) := by
  unfold HeapDevice.create
  obtain ⟨u, heq, hnew⟩ | ⟨p, q, u, -, hnew, heq⟩ := objectAlloc_cases K d kind parent calls t
  · rw [heq]
    exact replay_objectNew h hnew
  · rw [heq]
    have hlinked := replay_onObject (i := parent.getD 2) (f := (·.addMember calls.children))
      (replay_objectNew h hnew) fun o _ _ ho => replay_addMember ho _
    exact replay_onObject hlinked fun o ho _ hobj =>
      replay_furnish hobj (bare_new d p kind q calls.children o ho) calls

theorem fits_create (K : Kconfig) (h : d.Fits) (kind : Kind) (parent : Option ObjRef)
    (calls : CreateBlocks) (t : Blocks) :
    (d.create K kind parent calls t).1.Fits ∧
      d.objects.length ≤ (d.create K kind parent calls t).1.objects.length := by
  unfold HeapDevice.create
  obtain ⟨u, heq, -⟩ | ⟨p, q, u, hroom, -, heq⟩ := objectAlloc_cases K d kind parent calls t
  · rw [heq]
    exact ⟨h, le_rfl⟩
  · rw [heq]
    dsimp only
    have hlen : (d.objects ++ [HeapObj.fresh p kind q]).length = d.objects.length + 1 :=
      List.length_append
    rw [HeapDevice.Fits, length_onObject, length_onObject, hlen]
    have hnew : ∀ o ∈ d.objects ++ [HeapObj.fresh p kind q], o.Fits d.objects.length :=
      List.forall_mem_append.2 ⟨h, List.forall_mem_singleton.2 (fits_fresh p kind q)⟩
    have hsmall : d.objects.length < 2 ^ 15 := by
      have hmax := K.maxObjects_range.2
      omega
    refine ⟨fun o ho => ?_, Nat.le_succ _⟩
    have hlinked : ∀ o ∈ (HeapDevice.onObject { d with
        objects := d.objects ++ [HeapObj.fresh p kind q] } (parent.getD 2)
        (·.addMember calls.children) u).1.objects, o.Fits (d.objects.length + 1) := by
      intro o ho
      obtain ho | ⟨o', ho', rfl⟩ := mem_onObject ho
      · exact (hnew o ho).mono (Nat.le_succ _)
      · exact fits_addMember (hnew o' ho') hsmall _
    obtain ho | ⟨o', ho', rfl⟩ := mem_onObject ho
    · exact hlinked o ho
    · exact fits_furnish (hlinked o' ho') calls

theorem replay_deviceStop (h : replay t 0 = some (d.owned + k)) :
    replay (d.deviceStop t) 0 = some k := by
  have hobjects (os : List HeapObj) : ∀ {t k}, replay t 0 = some ((os.map HeapObj.owned).sum + k) →
      replay (os.foldl (fun t o => o.objectFree t) t) 0 = some k := by
    induction os with
    | nil =>
      intro t k h
      rwa [List.map_nil, List.sum_nil, Multiset.zero_add] at h
    | cons o os ih =>
      intro t k h
      rw [List.map_cons, List.sum_cons, Multiset.add_assoc] at h
      exact ih (replay_objectFree h)
  have hall : replay t 0 = some ((d.objects.map HeapObj.owned).sum + (held d.cmdQ +
      (held d.lock + (held (some d.self) + k)))) := by
    rw [h, HeapDevice.owned]
    exact congrArg some (by abel)
  exact replay_free (replay_free (replay_free (hobjects _ hall)))

theorem replay_deviceStart (h : replay t 0 = some k) (calls : StartBlocks) :
    replay (HeapDevice.deviceStart K calls t).2 0 =
      some ((HeapDevice.deviceStart K calls t).1.elim 0 HeapDevice.owned + k) := by
  unfold HeapDevice.deviceStart
  cases hdevice : calls.device with
  | none => exact h.trans (congrArg some (Multiset.zero_add k).symm)
  | some p =>
    dsimp only
    have hcalls : replay (alloc (alloc (alloc t (some p)) calls.lock) calls.cmdQ) 0 =
        some (HeapDevice.owned ⟨p, calls.lock, calls.cmdQ, []⟩ + k) := by
      refine (replay_alloc (replay_alloc (replay_alloc h))).trans (congrArg some ?_)
      rw [HeapDevice.owned, List.map_nil, List.sum_nil]
      abel
    rcases hmanager : HeapDevice.objectNew K ⟨p, calls.lock, calls.cmdQ, []⟩ .deviceManager
      calls.deviceManager.1 calls.deviceManager.2
      (alloc (alloc (alloc t (some p)) calls.lock) calls.cmdQ) with ⟨manager, d, t₁⟩
    rcases hsubs : d.objectNew K .subscriptionManager calls.subscriptionManager.1
      calls.subscriptionManager.2 t₁ with ⟨subscriptions, d', t₂⟩
    rcases hroot : d'.objectNew K .block calls.rootBlock.1 calls.rootBlock.2 t₂ with ⟨root, e, u⟩
    dsimp only
    have hend := replay_objectNew (replay_objectNew (replay_objectNew hcalls hmanager) hsubs) hroot
    split_ifs
    · exact (replay_deviceStop hcalls).trans (congrArg some (Multiset.zero_add k).symm)
    · exact (replay_deviceStop hend).trans (congrArg some (Multiset.zero_add k).symm)
    · exact hend

theorem fits_deviceStart (calls : StartBlocks) (t : Blocks) :
    ∀ d ∈ (HeapDevice.deviceStart K calls t).1, d.Fits := by
  unfold HeapDevice.deviceStart
  cases hdevice : calls.device with
  | none =>
    rintro d ⟨⟩
  | some p =>
    dsimp only
    rcases hmanager : HeapDevice.objectNew K ⟨p, calls.lock, calls.cmdQ, []⟩ .deviceManager
      calls.deviceManager.1 calls.deviceManager.2
      (alloc (alloc (alloc t (some p)) calls.lock) calls.cmdQ) with ⟨manager, d, t₁⟩
    rcases hsubs : d.objectNew K .subscriptionManager calls.subscriptionManager.1
      calls.subscriptionManager.2 t₁ with ⟨subscriptions, d', t₂⟩
    rcases hroot : d'.objectNew K .block calls.rootBlock.1 calls.rootBlock.2 t₂ with ⟨root, e, u⟩
    dsimp only
    have hnone : HeapDevice.Fits ⟨p, calls.lock, calls.cmdQ, []⟩ := fun o ho => by cases ho
    have hend := fits_objectNew (fits_objectNew (fits_objectNew hnone hmanager) hsubs) hroot
    split_ifs
    · rintro d ⟨⟩
    · rintro d ⟨⟩
    · rintro d ⟨⟩
      exact hend

end Devices

section Registry

variable {K : Kconfig} {d : HeapDevice} {e : Device K} {t : Blocks} {o : HeapObj} {n : ℕ}

/-- If the array can be had, a block has one more member. -/
theorem addMember_some (h : o.Fits n) (hn : n < 2 ^ 15) (hblock : o.kind = .block) (c : ℕ) :
    (o.addMember (some c) t).1.kind = .block ∧
      (o.addMember (some c) t).1.childCount.toNat = o.childCount.toNat + 1 := by
  have hnext := toNat_childCount_succ h hn
  unfold HeapObj.addMember
  dsimp only
  rw [if_neg (not_not.2 hblock)]
  split_ifs with hfull hnone
  · cases hnone
  · exact ⟨hblock, hnext⟩
  · exact ⟨hblock, hnext⟩

/-- What is not a block has no members. -/
theorem addMember_other (hblock : o.kind ≠ .block) (children : Option ℕ) :
    (o.addMember children t).1 = o := by
  unfold HeapObj.addMember
  rw [if_pos hblock]

theorem mirrors_registered (h : d.Mirrors e) (p : ℕ) (kind : Kind) (q : ℕ) (role : Bytes) :
    HeapDevice.Mirrors { d with objects := d.objects ++ [.fresh p kind q] }
      (e.registered kind role) := by
  have hobj (i : ObjRef) (o : HeapObj) (ho : (d.objects ++ [HeapObj.fresh p kind q])[i]? = some o) :
      d.objects[i]? = some o ∧ (e.registered kind role).obj i = e.obj i ∨
        o = .fresh p kind q ∧
          (e.registered kind role).obj i = .fresh kind e.nextOno role := by
    obtain hlt | rfl | hgt := Nat.lt_trichotomy i d.objects.length
    · rw [List.getElem?_append_left hlt] at ho
      refine .inl ⟨ho, ?_⟩
      simp only [Device.obj, Device.registered, List.getD_eq_getElem?_getD]
      rw [List.getElem?_append_left (h.length ▸ hlt)]
    · rw [List.getElem?_concat_length] at ho
      refine .inr ⟨(Option.some.inj ho).symm, ?_⟩
      simp only [Device.obj, Device.registered, List.getD_eq_getElem?_getD]
      rw [h.length, List.getElem?_concat_length]
      rfl
    · rw [List.getElem?_eq_none (by simp; omega)] at ho
      cases ho
  refine ⟨?_, fun i o ho => ?_, fun i o ho => ?_⟩
  · rw [List.length_append, Device.registered, List.length_append, h.length]
    rfl
  · obtain ⟨ho, he⟩ | ⟨rfl, he⟩ := hobj i o ho
    · exact (h.kind i o ho).trans (congrArg Obj.kind he.symm)
    · exact (congrArg Obj.kind he.symm)
  · obtain ⟨ho, he⟩ | ⟨rfl, he⟩ := hobj i o ho
    · exact (h.members i o ho).trans (congrArg (·.children.length) he.symm)
    · exact (congrArg (·.children.length) he.symm)

theorem mirrors_addMember (h : d.Mirrors e) (hfits : ∀ o ∈ d.objects, o.Fits n)
    (hn : n < 2 ^ 15) (b : ObjRef) (c : ℕ) (child : ObjRef) :
    (d.onObject b (·.addMember (some c)) t).1.Mirrors (e.blockAddMember (some b) child) := by
  have hlen := length_onObject d b (·.addMember (some c)) t
  -- the object behind a position, which is the block with one member more, or what it was
  have hget (i : ObjRef) (o : HeapObj)
      (ho : (d.onObject b (·.addMember (some c)) t).1.objects[i]? = some o) :
      (b = i ∧ ∃ o' ∈ d.objects[b]?, o = (o'.addMember (some c) t).1) ∨
        b ≠ i ∧ d.objects[i]? = some o := by
    rw [get_onObject] at ho
    split_ifs at ho with hb
    · obtain ⟨o', ho', rfl⟩ := Option.map_eq_some_iff.1 ho
      exact .inl ⟨hb, o', ho', rfl⟩
    · exact .inr ⟨hb, ho⟩
  unfold Device.blockAddMember
  dsimp only
  split_ifs with hblock
  · refine ⟨hlen.trans h.length, fun i o ho => ?_, fun i o ho => ?_⟩
    all_goals
      obtain ⟨rfl, o', ho', rfl⟩ | ⟨-, ho⟩ := hget i o ho
    · rw [addMember_other (by rwa [h.kind b o' ho'])]
      exact h.kind b o' ho'
    · exact h.kind i o ho
    · rw [addMember_other (by rwa [h.kind b o' ho'])]
      exact h.members b o' ho'
    · exact h.members i o ho
  · refine ⟨?_, fun i o ho => ?_, fun i o ho => ?_⟩
    · rw [hlen, h.length, Device.modifyObj, List.length_modify, Device.modifyObj,
        List.length_modify]
    · rw [Device.obj_modifyObj_congr Obj.kind (fun _ => by rfl),
        Device.obj_modifyObj_congr Obj.kind (fun _ => by rfl)]
      obtain ⟨rfl, o', ho', rfl⟩ | ⟨-, ho⟩ := hget i o ho
      · have hkind := (h.kind b o' ho').trans (not_not.1 hblock)
        have hfit := hfits o' (List.mem_of_getElem? ho')
        rw [(addMember_some hfit hn hkind c).1, not_not.1 hblock]
      · exact h.kind i o ho
    · rw [Device.obj_modifyObj_congr Obj.children (fun _ => by rfl)]
      obtain ⟨rfl, o', ho', rfl⟩ | ⟨hb, ho⟩ := hget i o ho
      · have hkind := (h.kind b o' ho').trans (not_not.1 hblock)
        have hfit := hfits o' (List.mem_of_getElem? ho')
        have hb : b < e.objects.length := h.length ▸ (List.getElem?_eq_some_iff.1 ho').1
        rw [(addMember_some hfit hn hkind c).2, Device.obj_modifyObj_self hb, h.members b o' ho',
          List.length_append]
        rfl
      · rw [Device.obj_modifyObj_ne hb]
        exact h.members i o ho

/-- **As long as memory lasts**, a constructor registers its object and makes it a member as
`Device.objectAlloc` does, which knows of no other limit than the size of the table. -/
theorem mirrors_objectAlloc (h : d.Mirrors e) (hfits : d.Fits) (hroot : e.rootBlock = some 2)
    {calls : CreateBlocks} {p q c : ℕ} (hself : calls.self = some p) (hrole : calls.role = some q)
    (hchildren : calls.children = some c) (kind : Kind) (parent : Option ObjRef) (role : Bytes) :
    (d.objectAlloc K kind parent calls t).1 = (e.objectAlloc kind parent role).1 ∧
      (d.objectAlloc K kind parent calls t).2.1.Mirrors (e.objectAlloc kind parent role).2 := by
  have hblock : (if parent.isSome then parent else e.rootBlock) = some (parent.getD 2) := by
    cases parent with
    | none => exact hroot
    | some b => rfl
  rw [Device.objectAlloc_eq, hblock]
  unfold HeapDevice.objectAlloc HeapDevice.objectNew
  rw [hself, hrole, hchildren, h.length]
  dsimp only
  split_ifs with hfull hnone hnone
  · exact ⟨rfl, h.length, h.kind, h.members⟩
  · exact absurd rfl hnone
  · cases hnone
  · refine ⟨rfl, ?_⟩
    have hsmall : e.objects.length < 2 ^ 15 := by
      have hmax := K.maxObjects_range.2
      omega
    have hold : ∀ o ∈ d.objects ++ [HeapObj.fresh p kind q], o.Fits e.objects.length :=
      List.forall_mem_append.2
        ⟨h.length ▸ hfits, List.forall_mem_singleton.2 (fits_fresh p kind q)⟩
    exact mirrors_addMember (mirrors_registered h p kind q role) hold hsmall _ c _

end Registry

end Aes70
