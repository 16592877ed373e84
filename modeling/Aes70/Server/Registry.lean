import Aes70.Router.Frame

/-!
# Object numbers

The managers and the root block have fixed numbers, all other objects are numbered in the order of
their registration. As the table fills up long before the numbers run out, no two objects share
one.

* `onoAt` : the number of the object at an index.
* `Device.Registry` : the objects are numbered so, and each manager exists once.
* `Device.Registry.find_ono` : an object is found under its number.
* `Device.Registry.objectAlloc` : registering an object keeps the numbering.
-/

namespace Aes70

variable {K : Kconfig}

/-- The number of the object at an index of the registry. -/
def onoAt (i : ℕ) : UInt32 :=
  if i = 0 then 1 else if i = 1 then 4 else if i = 2 then 100 else UInt32.ofNat (4093 + i)

theorem toNat_onoAt {i : ℕ} (h : i < 1024) : (onoAt i).toNat =
    if i = 0 then 1 else if i = 1 then 4 else if i = 2 then 100 else 4093 + i := by
  unfold onoAt
  split_ifs
  · rfl
  · rfl
  · rfl
  · rw [UInt32.toNat_ofNat_of_lt']
    exact lt_trans (by omega : 4093 + i < 8192) (by decide)

theorem onoAt_injective {i j : ℕ} (hi : i < 1024) (hj : j < 1024) (h : onoAt i = onoAt j) :
    i = j := by
  have hval : (onoAt i).toNat = (onoAt j).toNat := congrArg _ h
  rw [toNat_onoAt hi, toNat_onoAt hj] at hval
  split_ifs at hval <;> omega

theorem onoAt_succ {i : ℕ} (h : 3 ≤ i) : onoAt (i + 1) = onoAt i + 1 := by
  unfold onoAt
  rw [if_neg (by omega), if_neg (by omega), if_neg (by omega), if_neg (by omega),
    if_neg (by omega), if_neg (by omega), ← Nat.add_assoc, UInt32.ofNat_add]
  rfl

/-- What identifies an object. -/
def Obj.ident (o : Obj) : UInt32 × Kind := (o.ono, o.kind)

namespace Device

/-- The objects are numbered by their place in the registry, the managers come first, and the next
number is that of the next place while there is one. -/
structure Registry (d : Device K) : Prop where
  length_ge : 3 ≤ d.objects.length
  length_le : d.objects.length ≤ K.maxObjects
  ono : ∀ i < d.objects.length, (d.obj i).ono = onoAt i
  deviceManager : ∀ i < d.objects.length, (d.obj i).kind = .deviceManager ↔ i = 0
  subscriptionManager : ∀ i < d.objects.length, (d.obj i).kind = .subscriptionManager ↔ i = 1
  next : d.objects.length < K.maxObjects → d.nextOno = onoAt d.objects.length

namespace Registry

variable {d : Device K} (h : d.Registry)
include h

theorem lt {i : ObjRef} (hi : i < d.objects.length) : i < 1024 :=
  lt_of_lt_of_le hi (h.length_le.trans K.maxObjects_range.2)

theorem eq_of_ono {i j : ObjRef} (hi : i < d.objects.length) (hj : j < d.objects.length)
    (hij : (d.obj i).ono = (d.obj j).ono) : i = j := by
  rw [h.ono i hi, h.ono j hj] at hij
  exact onoAt_injective (h.lt hi) (h.lt hj) hij

/-- An object is found under its number. -/
theorem find_ono {i : ObjRef} (hi : i < d.objects.length) : d.find (d.obj i).ono = some i := by
  cases hf : d.find (d.obj i).ono with
  | none =>
    have hmem : d.obj i ∈ d.objects := by
      simp [obj, hi]
    have := List.findIdx?_eq_none_iff.1 hf _ hmem
    simp at this
  | some j => rw [h.eq_of_ono (find_lt hf) hi (obj_of_find hf)]

/-- The subscription manager is the object with number 4. -/
theorem kind_eq_iff {ono : UInt32} {i : ObjRef} (hf : d.find ono = some i) :
    (d.obj i).kind = .subscriptionManager ↔ ono = 4 := by
  have hi := find_lt hf
  have hono := obj_of_find hf
  rw [h.ono i hi] at hono
  rw [h.subscriptionManager i hi, ← hono]
  constructor
  · rintro rfl
    rfl
  · intro h4
    exact onoAt_injective (h.lt hi) (by decide : 1 < 1024) h4

/-- A device with the same objects, up to what does not identify them, and the same next number. -/
theorem congr {d' : Device K} (hlen : d'.objects.length = d.objects.length)
    (hident : ∀ i < d.objects.length, (d'.obj i).ident = (d.obj i).ident)
    (hnext : d'.nextOno = d.nextOno) : d'.Registry where
  length_ge := hlen ▸ h.length_ge
  length_le := hlen ▸ h.length_le
  ono i hi := by
    rw [hlen] at hi
    exact (congrArg Prod.fst (hident i hi)).trans (h.ono i hi)
  deviceManager i hi := by
    rw [hlen] at hi
    rw [show (d'.obj i).kind = (d.obj i).kind from congrArg Prod.snd (hident i hi)]
    exact h.deviceManager i hi
  subscriptionManager i hi := by
    rw [hlen] at hi
    rw [show (d'.obj i).kind = (d.obj i).kind from congrArg Prod.snd (hident i hi)]
    exact h.subscriptionManager i hi
  next hlt := by
    rw [hlen] at hlt ⊢
    exact hnext.trans (h.next hlt)

/-- Using a number up changes nothing once the table is full. -/
theorem full (hfull : K.maxObjects ≤ d.objects.length) :
    { d with nextOno := d.nextOno + 1 }.Registry :=
  { h with next := fun hlt => absurd hlt (Nat.not_lt.2 hfull) }

theorem registered {kind : Kind} (role : Bytes) (hlt : d.objects.length < K.maxObjects)
    (hkind : kind ∉ [Kind.deviceManager, .subscriptionManager]) :
    (d.registered kind role).Registry := by
  simp only [List.mem_cons, List.not_mem_nil, or_false, not_or] at hkind
  have hlen : (d.registered kind role).objects.length = d.objects.length + 1 := by
    simp [Device.registered]
  have hnew : (d.registered kind role).obj d.objects.length = .fresh kind d.nextOno role := by
    simp [Device.registered, obj]
  have hge := h.length_ge
  refine ⟨by omega, by omega, ?_, ?_, ?_, fun _ => ?_⟩
  · intro i hi
    by_cases hold : i < d.objects.length
    · rw [obj_registered d kind role hold, h.ono i hold]
    · obtain rfl : i = d.objects.length := by omega
      rw [hnew, Obj.fresh, h.next hlt]
  · intro i hi
    by_cases hold : i < d.objects.length
    · rw [obj_registered d kind role hold, h.deviceManager i hold]
    · obtain rfl : i = d.objects.length := by omega
      rw [hnew]
      exact iff_of_false hkind.1 (by omega)
  · intro i hi
    by_cases hold : i < d.objects.length
    · rw [obj_registered d kind role hold, h.subscriptionManager i hold]
    · obtain rfl : i = d.objects.length := by omega
      rw [hnew]
      exact iff_of_false hkind.2 (by omega)
  · rw [hlen, onoAt_succ hge, ← h.next hlt]
    rfl

end Registry

end Device

end Aes70
