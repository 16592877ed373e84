import Aes70.Device.Notify

/-!
# The object registry

`aes70_object_new`, `aes70_block_add_member` and `aes70_object_alloc`. The registry only grows; an
object's index in it is the model's pointer to the object.
-/

namespace Aes70

namespace Device

variable {K : Kconfig}

/-- `aes70_object_new`: register an object; `none` when the table is full. -/
def objectNew (d : Device K) (kind : Kind) (ono : UInt32) (role : Bytes) :
    Option ObjRef × Device K :=
  if K.maxObjects ≤ d.objects.length then (none, d)
  else (some d.objects.length, { d with objects := d.objects ++ [.fresh kind ono role] })

/-- `aes70_block_add_member`. -/
def blockAddMember (d : Device K) (block : Option ObjRef) (child : ObjRef) : Device K :=
  match block with
  | none => d
  | some b =>
    if (d.obj b).kind ≠ .block then d else
      (d.modifyObj b fun o => { o with children := o.children ++ [child] }).modifyObj child
        fun o => { o with ownerOno := (d.obj b).ono }

/-- `aes70_object_alloc`: take the next object number, register, link into the parent block or the
root block. The number is used up even when the table is full. -/
def objectAlloc (d : Device K) (kind : Kind) (parent : Option ObjRef) (role : Bytes) :
    Option ObjRef × Device K :=
  let block := if parent.isSome then parent else d.rootBlock
  let (o, d') := { d with nextOno := d.nextOno + 1 }.objectNew kind d.nextOno role
  match o with
  | none => (none, d')
  | some i => (some i, d'.blockAddMember block i)

/-- The device once a fresh object is registered, not yet linked into a block. -/
def registered (d : Device K) (kind : Kind) (role : Bytes) : Device K :=
  { d with nextOno := d.nextOno + 1, objects := d.objects ++ [.fresh kind d.nextOno role] }

theorem objectAlloc_eq (d : Device K) (kind : Kind) (parent : Option ObjRef) (role : Bytes) :
    d.objectAlloc kind parent role =
      if K.maxObjects ≤ d.objects.length then (none, { d with nextOno := d.nextOno + 1 })
      else (some d.objects.length, (d.registered kind role).blockAddMember
        (if parent.isSome then parent else d.rootBlock) d.objects.length) := by
  unfold objectAlloc objectNew
  dsimp only
  split_ifs <;> rfl

theorem objectAlloc_none {d d' : Device K} {kind : Kind} {parent : Option ObjRef} {role : Bytes}
    (h : d.objectAlloc kind parent role = (none, d')) :
    K.maxObjects ≤ d.objects.length ∧ d' = { d with nextOno := d.nextOno + 1 } := by
  rw [objectAlloc_eq] at h
  by_cases hfull : K.maxObjects ≤ d.objects.length
  · rw [if_pos hfull] at h
    exact ⟨hfull, (Prod.mk.inj h).2.symm⟩
  · rw [if_neg hfull] at h
    cases h

theorem objectAlloc_some {d d' : Device K} {kind : Kind} {parent : Option ObjRef} {role : Bytes}
    {i : ObjRef} (h : d.objectAlloc kind parent role = (some i, d')) :
    d.objects.length < K.maxObjects ∧ i = d.objects.length ∧
      d' = (d.registered kind role).blockAddMember
        (if parent.isSome then parent else d.rootBlock) i := by
  rw [objectAlloc_eq] at h
  by_cases hfull : K.maxObjects ≤ d.objects.length
  · rw [if_pos hfull] at h
    cases h
  · rw [if_neg hfull] at h
    cases h
    exact ⟨Nat.lt_of_not_le hfull, rfl, rfl⟩

@[simp] theorem nextOno_blockAddMember (d : Device K) (block : Option ObjRef) (child : ObjRef) :
    (d.blockAddMember block child).nextOno = d.nextOno := by
  unfold blockAddMember
  split
  · rfl
  · split_ifs <;> rfl

theorem nextOno_objectAlloc {d d' : Device K} {kind : Kind} {parent : Option ObjRef} {role : Bytes}
    {i : Option ObjRef} (h : d.objectAlloc kind parent role = (i, d')) :
    d'.nextOno = d.nextOno + 1 := by
  cases i with
  | none => rw [(objectAlloc_none h).2]
  | some i =>
    rw [(objectAlloc_some h).2.2, nextOno_blockAddMember]
    rfl

end Device

end Aes70
