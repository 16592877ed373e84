import Aes70.Ieee.Order
import Aes70.Ocp1.Text
import Aes70.Server.Enumeration

/-!
# Snapshot and recall

The blob that a block answers with holds the values of its members, but for identification
actuators. Applying it later commits them one after the other, and a commit of a group's proxy is
copied to the citizens: they hold the value of the proxy then, unless their own entry comes later.

* `recallParams_blob` : the recall reads the entries that were written.
* `Obj.Accepts` : the setter of the object can set this value; `clampToRange_of_accepts` : the
  recall does not change it.
* `Device.lastStore` : the last entry of the snapshot that stores into an object.
* `actuators` : the scalar actuators below a block, whether a snapshot holds them or not.
* `restored_iff` : when the values are back.
-/

namespace Aes70

open Device Handler

variable {K : Kconfig}

/-! ### Reading the blob -/

/-- The fields of an entry. -/
def entryFields (e : UInt32 × F64) : List Field := [.u32 e.1, .f64 e.2]

section Reading

variable {r : Reader}

theorem Read.f64_next {v : F64} (he : r.err = false)
    (h : r.Next (BigEndian.encode 8 v.bits.toNat)) : Read.f64 r = (v, r.advance 8) := by
  have hread : Read.u64 r = (⟨v.bits⟩, r.advance 8) := Read.u64_next he h
  change ((⟨(Read.u64 r).1.toBitVec⟩ : F64), (Read.u64 r).2) = _
  rw [hread]

/-- Entries that were written are read. -/
theorem recallEntries_next (es : List (UInt32 × F64)) (he : r.err = false)
    (h : r.Next (Field.encodeAll (es.flatMap entryFields))) :
    (recallEntries es.length r).1 = (es, false) := by
  induction es generalizing r with
  | nil => rfl
  | cons e es ih =>
    have hsplit : Field.encodeAll ((e :: es).flatMap entryFields) = wr32 e.1 ++
        (BigEndian.encode 8 e.2.bits.toNat ++ Field.encodeAll (es.flatMap entryFields)) := by
      rw [List.flatMap_cons, encodeAll_append, ← List.append_assoc]
      simp [entryFields, Field.encodeAll, Field.encode, Field.pieces]
    rw [hsplit] at h
    obtain ⟨hono, h⟩ := h.append
    obtain ⟨hnum, hrest⟩ := h.append
    rw [length_wr32] at hnum hrest
    rw [BigEndian.length_encode] at hrest
    have hreadOno : Read.u32 r = (e.1, r.advance 4) := Read.u32_next he hono
    have hreadNum : Read.f64 (r.advance 4) = (e.2, (r.advance 4).advance 8) :=
      Read.f64_next he hnum
    have herr : ((r.advance 4).advance 8).err = false := he
    rw [List.length_cons, recallEntries]
    simp only [hreadOno, hreadNum, herr, Bool.false_eq_true, if_false]
    have hih := ih herr hrest
    have htail : (recallEntries es.length ((r.advance 4).advance 8)).1.1 = es :=
      congrArg Prod.fst hih
    have hwhole : (recallEntries es.length ((r.advance 4).advance 8)).1.2 = false :=
      congrArg Prod.snd hih
    exact Prod.ext (congrArg (e :: ·) htail) hwhole

/-- **The recall reads the entries** of a blob. -/
theorem recallParams_blob {p : Ptr} {m : ℕ} {len : UInt32} {n : UInt16}
    {es : List (UInt32 × F64)} (hn : n.toNat = es.length)
    (hlen : len.toNat = (Field.encodeAll (.u16 n :: es.flatMap entryFields)).length)
    (hp : p.read m = Field.encodeAll (.u32 len :: .u16 n :: es.flatMap entryFields)) :
    recallParams (Reader.init p m) = some (es, false) := by
  have hsplit (b : UInt32) : Field.encodeAll (.u32 b :: .u16 n :: es.flatMap entryFields) =
      wr32 b ++ (wr16 n ++ Field.encodeAll (es.flatMap entryFields)) := by
    rw [← List.append_assoc]
    simp [Field.encodeAll, Field.encode, Field.pieces]
  have hbody : Field.encodeAll (.u16 n :: es.flatMap entryFields) =
      wr16 n ++ Field.encodeAll (es.flatMap entryFields) := by
    simp [Field.encodeAll, Field.encode, Field.pieces]
  rw [hsplit] at hp
  rw [hbody] at hlen
  have hm : m = 4 + len.toNat := by
    have hlength := congrArg List.length hp
    rw [Ptr.length_read, List.length_append, length_wr32, ← hlen] at hlength
    exact hlength
  -- the length is read, then the entries from the area behind it
  have hnext : (Reader.init p m).Next
      (wr32 len ++ (wr16 n ++ Field.encodeAll (es.flatMap entryFields))) :=
    Reader.next_init hp
  obtain ⟨hlenNext, hrest⟩ := hnext.append
  have hread : Read.u32 (Reader.init p m) = (len, (Reader.init p m).advance 4) :=
    Read.u32_next rfl hlenNext
  have hsub : (Reader.init (p.add 4) len.toNat).Next
      (wr16 n ++ Field.encodeAll (es.flatMap entryFields)) := by
    have hbytes := hrest.bytes
    rw [length_wr32, ← hlen] at hbytes
    exact Reader.next_init hbytes
  obtain ⟨hcount, hentries⟩ := hsub.append
  rw [length_wr16] at hentries
  have hreadCount : Read.u16 (Reader.init (p.add 4) len.toNat) =
      (n, (Reader.init (p.add 4) len.toNat).advance 2) := Read.u16_next rfl hcount
  have hsize : szAdd 4 len.toNat ≤ m := by
    rw [hm]
    exact Nat.mod_le _ _
  have hall := recallEntries_next es rfl hentries
  rw [← hn] at hall
  have hoff : ((Reader.init p m).advance 4).off = 4 := rfl
  unfold recallParams
  simp only [hread, hoff]
  rw [if_neg (by simpa [Reader.advance, Reader.init] using hsize)]
  have hptr : ((Reader.init p m).advance 4).p.add 4 = p.add 4 := rfl
  simp only [hptr, hreadCount]
  exact congrArg some hall

end Reading

/-! ### Values a setter accepts -/

/-- Some parameters make the setter of the object set this value. -/
def Obj.Accepts (o : Obj) (v : F64) : Prop := ∃ rd, setting o rd = some v

/-- The range that objects of the classes with few values are given: that of the values, or none. -/
def Scalar.Usual (s : Scalar) : Prop :=
  match s.kind with
  | .mute | .polarity =>
    s.numMin = .ofNat 1 ∧ s.numMax = .ofNat 2 ∨ s.numMin = .zero ∧ s.numMax = .zero
  | .boolean | .identify =>
    s.numMin = .zero ∧ s.numMax = .ofNat 1 ∨ s.numMin = .zero ∧ s.numMax = .zero
  | .switch =>
    s.numMin = .zero ∧ (s.swCount ≠ 0 → s.numMax = .ofNat (s.swCount.toNat - 1))
  | _ => True

section Accepts

variable {d : Device K} {o : Obj} {v : F64}

theorem usual_setup (call : Create) (h : o.scalar = .blank call.kind) :
    (call.setup o).scalar.Usual := by
  obtain ⟨hk, -, hmin, hmax, hcount⟩ := Scalar.mk.inj h
  cases call with
  | mute muted | polarity muted | boolean v | identify =>
    simp [Create.setup, makeNum, Obj.scalar, Scalar.Usual, hk, Create.kind]
  | switch names count init =>
    have hkind : o.kind = .switch := hk
    cases names with
    | none =>
      simp [Create.setup, Create.setupSwitch, Obj.scalar, Scalar.Usual, hkind, hmin, hcount]
    | some ns =>
      by_cases h0 : count = 0
      · simp [Create.setup, Create.setupSwitch, Obj.scalar, Scalar.Usual, hkind, hmin, hcount, h0]
      · simp [Create.setup, Create.setupSwitch, Obj.scalar, Scalar.Usual, hkind, hmin, h0]
  | _ => simp [Create.setup, makeNum, makeSensor, Obj.scalar, Scalar.Usual, hk, Create.kind]

theorem usual_initProxy {k : Kind} (hk : k ∈ [Kind.gain, .mute, .boolean])
    (h : o.scalar = .blank k) : (initProxy o).scalar.Usual := by
  obtain ⟨hkind, -, hmin, hmax, -⟩ := Scalar.mk.inj h
  simp only [List.mem_cons, List.not_mem_nil, or_false] at hk
  unfold initProxy
  rw [hkind]
  rcases hk with rfl | rfl | rfl <;>
    simp [Obj.scalar, Scalar.Usual, hmin, hmax]

/-- **The ranges are the usual ones** in every state. -/
theorem reach_usual (h : (control K).Reach d) : d.All Scalar.Usual := by
  refine h.invariant (fun _ h => all_start h ?_) fun d a _ hall hok => ?_
  · simp [Scalar.Usual, Scalar.blank]
  · refine (action_changes hok).all hall (fun i hi v _ => hall i hi) fun k p f hB o ho => ?_
    cases a with
    | create call parent role =>
      obtain ⟨rfl, -, rfl⟩ := hB
      exact usual_setup call ho
    | operation op =>
      obtain ⟨hk, -, rfl⟩ := hB
      exact usual_initProxy hk ho
    | other d' => exact hB.elim

/-- A value in the range is not clamped. -/
theorem clampToRange_of_inside (h : o.outside v = false) : clampToRange o v = v := by
  simp only [Obj.outside, Bool.or_eq_false_iff] at h
  simp [clampToRange, h.1, h.2]

/-- Nothing is clamped without a range. -/
theorem clampToRange_of_empty (h : o.numMin.lt o.numMax = false) : clampToRange o v = v := by
  simp [clampToRange, h]

theorem lt_ofNat_iff {a b : ℕ} (ha : a < 2 ^ 53) (hb : b < 2 ^ 53) :
    (Ieee.Binary.ofNat a : F64).lt (.ofNat b) = true ↔ a < b := by
  rw [Ieee.Binary.ofNat_eq_ofInt, Ieee.Binary.ofNat_eq_ofInt,
    Ieee.Binary.lt_ofInt_iff (by decide) (by decide) (by simpa using ha) (by simpa using hb)]
  exact Int.ofNat_lt

/-- A natural number between the bounds. -/
theorem clampToRange_ofNat {lo hi n : ℕ} (hmin : o.numMin = .ofNat lo) (hmax : o.numMax = .ofNat hi)
    (hlo : lo ≤ n) (hhi : n ≤ hi) (hbound : hi < 2 ^ 53) :
    clampToRange o (.ofNat n) = .ofNat n := by
  refine clampToRange_of_inside ?_
  rw [Obj.outside, hmin, hmax, Bool.or_eq_false_iff]
  constructor
  · exact Bool.eq_false_iff.2 fun h => by
      have := (lt_ofNat_iff (by omega) (by omega)).1 h
      omega
  · exact Bool.eq_false_iff.2 fun h => by
      have := (lt_ofNat_iff (by omega) (by omega)).1 h
      omega

/-- **A value that the setter accepts** is recalled as it is. -/
theorem clampToRange_of_accepts (hu : o.scalar.Usual) (h : o.Accepts v) : clampToRange o v = v := by
  obtain ⟨rd, h⟩ := h
  have hempty (hmin : o.numMin = .zero) (hmax : o.numMax = .zero) : clampToRange o v = v :=
    clampToRange_of_empty (by rw [hmin, hmax]; decide)
  unfold Scalar.Usual at hu
  have hkind : o.scalar.kind = o.kind := rfl
  cases hk : o.kind with
  | gain | frequency | delay | float32 | int32 | uint16 | uint32 =>
    -- these setters check the range themselves
    exact clampToRange_of_inside (outside_of_setting (by rw [hk]; rfl) h)
  | mute | polarity =>
    simp only [setting, hk] at h
    obtain ⟨x, hin, rfl⟩ := accepted_some h
    have hx : x = 1 ∨ x = 2 := by
      by_contra! hne
      simp [hne] at hin
    simp only [hkind, hk] at hu
    rcases hu with ⟨hmin, hmax⟩ | ⟨hmin, hmax⟩
    · rcases hx with rfl | rfl
      · exact clampToRange_ofNat hmin hmax (by decide) (by decide) (by decide)
      · exact clampToRange_ofNat hmin hmax (by decide) (by decide) (by decide)
    · exact hempty hmin hmax
  | boolean | identify =>
    simp only [setting, hk] at h
    obtain ⟨x, -, rfl⟩ := accepted_some h
    simp only [hkind, hk] at hu
    rcases hu with ⟨hmin, hmax⟩ | ⟨hmin, hmax⟩
    · rw [← Ieee.Binary.ofNat_zero] at hmin
      refine clampToRange_ofNat hmin hmax (Nat.zero_le _) ?_ (by decide)
      unfold flag
      split_ifs <;> decide
    · exact hempty hmin hmax
  | switch =>
    simp only [setting, hk] at h
    obtain ⟨p, hin, rfl⟩ := accepted_some h
    simp only [hkind, hk] at hu
    obtain ⟨hmin, hmax⟩ := hu
    have hp := lt_of_position hin
    have hcount : o.swCount ≠ 0 := by
      intro h0
      rw [h0] at hp
      exact Nat.not_lt_zero _ hp
    have hlt := o.swCount.toNat_lt
    have hmax' : o.numMax = .ofNat (o.swCount.toNat - 1) := hmax hcount
    rw [← Ieee.Binary.ofNat_zero] at hmin
    exact clampToRange_ofNat hmin hmax' (Nat.zero_le _) (Nat.le_sub_one_of_lt hp) (by omega)
  | _ => simp only [setting, hk, reduceCtorEq] at h

end Accepts

/-! ### Where a recall leaves an object -/

section Last

variable {d : Device K}

theorem lastWrite_append (ws ws' : List (ObjRef × F64)) (i : ObjRef) :
    lastWrite (ws ++ ws') i = (lastWrite ws' i).or (lastWrite ws i) := by
  simp only [lastWrite, List.reverse_append, List.find?_append]
  cases ws'.reverse.find? fun w => w.1 == i <;> rfl

/-- What a commit leaves in an object it stores into. -/
theorem lastWrite_commitWrites (d : Device K) (q c : ObjRef) (v : F64) :
    lastWrite (d.commitWrites q v) c = if q = c ∨ c ∈ d.copies q then some v else none := by
  have hall : ∀ w ∈ (d.commitWrites q v).reverse, w.2 = v := by
    intro w hw
    simp only [commitWrites, List.mem_reverse, List.mem_cons, List.mem_map] at hw
    rcases hw with rfl | ⟨t, -, rfl⟩ <;> rfl
  have hmem : (∃ w ∈ (d.commitWrites q v).reverse, w.1 = c) ↔ q = c ∨ c ∈ d.copies q := by
    simp [commitWrites, or_comm]
  unfold lastWrite
  cases hf : (d.commitWrites q v).reverse.find? fun w => w.1 == c with
  | none =>
    rw [if_neg]
    · rfl
    · rw [← hmem]
      rintro ⟨w, hw, hc⟩
      exact absurd (List.find?_eq_none.1 hf w hw) (by simp [hc])
  | some w =>
    have hw := List.mem_of_find?_eq_some hf
    rw [if_pos (hmem.1 ⟨w, hw, by simpa using List.find?_some hf⟩), Option.map_some, hall w hw]

/-- The last commit of a list that stores into `c`. -/
def Device.lastStore (d : Device K) (qs : List ObjRef) (c : ObjRef) : Option ObjRef :=
  qs.reverse.find? fun q => decide (q = c ∨ c ∈ d.copies q)

/-- What a list of commits leaves in an object. -/
theorem lastWrite_flatMap (d : Device K) (f : ObjRef → F64) (qs : List ObjRef) (c : ObjRef) :
    lastWrite (qs.flatMap fun q => d.commitWrites q (f q)) c = (d.lastStore qs c).map f := by
  induction qs using List.reverseRecOn with
  | nil => rfl
  | append_singleton qs q ih =>
    rw [List.flatMap_append, List.flatMap_singleton, lastWrite_append, lastWrite_commitWrites, ih]
    unfold lastStore
    rw [List.reverse_append, List.reverse_singleton, List.singleton_append, List.find?_cons]
    by_cases hq : q = c ∨ c ∈ d.copies q <;> simp [hq]

end Last

/-! ### The same objects with other values -/

/-- The devices have the same objects and groups; control values may differ. -/
structure SameObjects (d d' : Device K) : Prop where
  length : d'.objects.length = d.objects.length
  frame : ∀ i, (d'.obj i).frame = (d.obj i).frame
  groups : ∀ i, (d.obj i).kind = .grouper → (d'.obj i).priv = (d.obj i).priv

namespace SameObjects

variable {d d' : Device K}

/-- Objects that differ in their values only. -/
theorem of_shape (he : d'.shape.objects = d.shape.objects) : SameObjects d d' := by
  have hobj (i : ObjRef) : (d'.obj i).eraseNum = (d.obj i).eraseNum := by
    rw [← obj_shape, ← obj_shape, obj, obj, he]
  refine ⟨?_, ?_, ?_⟩
  · have hlength := congrArg List.length he
    simpa [shape] using hlength
  · intro i
    have hframe := congrArg Obj.frame (hobj i)
    exact hframe
  · intro i _
    have hpriv := congrArg Obj.priv (hobj i)
    exact hpriv

variable (h : SameObjects d d')
include h

theorem kind (i : ObjRef) : (d'.obj i).kind = (d.obj i).kind := by
  have hframe := congrArg Obj.kind (h.frame i)
  exact hframe

theorem ono (i : ObjRef) : (d'.obj i).ono = (d.obj i).ono := by
  have hframe := congrArg Obj.ono (h.frame i)
  exact hframe

theorem find (ono : UInt32) : d'.find ono = d.find ono := by
  have hobj (e : Device K) (i : ℕ) (hi : i < e.objects.length) : e.objects[i] = e.obj i := by
    simp [obj, hi]
  have honos : d'.objects.map Obj.ono = d.objects.map Obj.ono := by
    refine List.ext_getElem (by simpa using h.length) fun i hi hi' => ?_
    simp only [List.length_map] at hi hi'
    rw [List.getElem_map, List.getElem_map, hobj _ _ hi, hobj _ _ hi', h.ono]
  have hfind (e : Device K) :
      e.find ono = (e.objects.map Obj.ono).findIdx? fun n => n == ono := by
    rw [Device.find, List.findIdx?_map]
    rfl
  rw [hfind, hfind, honos]

theorem fanTargets (w : ObjRef) : d'.fanTargets w = d.fanTargets w := by
  have htargets (g : GrouperPriv) (gi : Fin 16) :
      d'.groupTargets w g gi = d.groupTargets w g gi := by
    simp only [groupTargets, h.find, h.kind]
  simp only [Device.fanTargets, h.length, htargets, h.ono]
  refine List.flatMap_congr fun k _ => ?_
  rw [h.kind]
  by_cases hk : (d.obj k).kind = .grouper
  · rw [h.groups k hk]
  · split
    · next heq _ => exact absurd heq hk
    · split
      · next heq _ => exact absurd heq hk
      · rfl

theorem copies (w : ObjRef) : d'.copies w = d.copies w := by
  rw [Device.copies, Device.copies, h.kind, h.fanTargets]

theorem clampToRange (i : ObjRef) (v : F64) :
    clampToRange (d'.obj i) v = clampToRange (d.obj i) v := by
  have hclamp := congrArg (fun o => Aes70.clampToRange o v) (h.frame i)
  exact hclamp

/-- An entry of an object of the snapshot commits its value. -/
theorem entryStores {i : ObjRef} {v : F64} (hf : d.find (d.obj i).ono = some i)
    (hk : isParamKind (d.obj i).kind = true) (hclamp : Aes70.clampToRange (d.obj i) v = v) :
    d'.entryStores ((d.obj i).ono, v) = d.commitWrites i v := by
  obtain ⟨p, hp⟩ : ∃ p, primaryProperty (d.obj i).kind = some p := by
    cases hkind : (d.obj i).kind <;> simp [hkind, isParamKind] at hk <;> exact ⟨_, rfl⟩
  have htarget : recallTarget d' (d.obj i).ono = some (i, p) := by
    simp only [recallTarget, h.find, hf, h.kind, hk, if_true, hp]
    rfl
  simp only [Device.entryStores, htarget]
  rw [h.clampToRange, hclamp, commitWrites, commitWrites, h.copies]

end SameObjects

/-! ### Scalar actuators -/

/-- The classes whose own setter stores a number. -/
def isActuator (kind : Kind) : Bool := isParamKind kind || kind == .identify

/-- The scalar actuators among the transitive members of a block. -/
def actuators (d : Device K) (b : ObjRef) : List ObjRef :=
  ((descendants d b).map Prod.snd).filter fun c => isActuator (d.obj c).kind

/-- No setter of a number is left out. -/
theorem isActuator_of_accepts {o : Obj} {v : F64} (h : o.Accepts v) : isActuator o.kind = true := by
  obtain ⟨rd, h⟩ := h
  cases hk : o.kind <;> simp only [setting, hk, reduceCtorEq] at h <;> rfl

section Actuators

variable {d : Device K} {b c : ObjRef}

/-- A scalar actuator is in the snapshot, or it is an identification actuator. -/
theorem mem_actuators_iff : c ∈ actuators d b ↔ c ∈ paramObjects d b ∨
    c ∈ (descendants d b).map Prod.snd ∧ (d.obj c).kind = .identify := by
  simp only [actuators, paramObjects, isActuator, List.mem_filter, Bool.or_eq_true, beq_iff_eq]
  exact and_or_left

/-- No entry of a snapshot stores into an identification actuator. -/
theorem lastStore_identify {qs : List ObjRef} (hqs : ∀ q ∈ qs, isParamKind (d.obj q).kind = true)
    (hc : (d.obj c).kind = .identify) : d.lastStore qs c = none := by
  refine List.find?_eq_none.2 fun q hq => ?_
  have hparam := hqs q (List.mem_reverse.1 hq)
  have hne : (d.obj q).kind ≠ .identify := by
    intro hk
    rw [hk] at hparam
    cases hparam
  rw [decide_eq_true_eq]
  rintro (rfl | hcopy)
  · exact hne hc
  · unfold copies at hcopy
    split_ifs at hcopy
    · exact hne ((mem_fanTargets hcopy).2.1.symm.trans hc)
    · cases hcopy

end Actuators

/-! ### The round trip -/

section RoundTrip

variable {d d' : Device K} {b : ℕ}

/-- The entries of a snapshot. -/
def Device.entries (d : Device K) (qs : List ObjRef) : List (UInt32 × F64) :=
  qs.map fun q => ((d.obj q).ono, (d.obj q).num)

/-- What the recall of a snapshot leaves in an object. -/
theorem num_recall (hr : d.Registry) (h : SameObjects d d') {qs : List ObjRef}
    (hqs : ∀ q ∈ qs, q < d.objects.length ∧ isParamKind (d.obj q).kind = true ∧
      clampToRange (d.obj q) (d.obj q).num = (d.obj q).num) {c : ObjRef}
    (hc : c < d.objects.length) : ((d'.recall (d.entries qs)).obj c).num =
      ((d.lastStore qs c).map fun q => (d.obj q).num).getD (d'.obj c).num := by
  have hstores : d'.recallStores (d.entries qs) =
      qs.flatMap fun q => d.commitWrites q (d.obj q).num := by
    rw [recallStores, entries, List.flatMap_map]
    refine List.flatMap_congr fun q hq => ?_
    obtain ⟨hlt, hk, hclamp⟩ := hqs q hq
    exact h.entryStores (hr.find_ono hlt) hk hclamp
  rw [obj_eq_of_core (core_recall d' _), obj_writeNums _ _ (by rw [h.length]; exact hc), hstores,
    lastWrite_flatMap]

/-- The last commit of a snapshot that is copied to a member, if not its own, has its value. -/
def Device.Settled (d : Device K) (b : ℕ) : Prop :=
  ∀ c ∈ paramObjects d b, ∀ q, d.lastStore (paramObjects d b) c = some q →
    (d.obj q).num = (d.obj c).num

theorem SameObjects.active (h : SameObjects d d') (x : Option ℕ) :
    SameObjects d { d' with activeConn := x } := ⟨h.length, h.frame, h.groups⟩

/-- An own entry is a store. -/
theorem lastStore_of_mem {qs : List ObjRef} {c : ObjRef} (hc : c ∈ qs) :
    ∃ q, d.lastStore qs c = some q := by
  rw [← Option.isSome_iff_exists, lastStore, List.find?_isSome]
  exact ⟨c, List.mem_reverse.2 hc, by simp⟩

/-- **A snapshot is restored** exactly if the gate lets the recall through, no entry overwrites what
an entry before it restored, and the identification actuators have not changed in between. -/
theorem restored_iff (hreach : (control K).Reach d) (h : SameObjects d d')
    {room conn room' conn' : ℕ} {fetch restore : Command} {rd : Reader} {p : Ptr} {m : ℕ}
    (hkind : (d.obj b).kind = .block)
    (hfetch : d.find fetch.target = some b ∧ fetch.level = 3 ∧ fetch.index = 25)
    (hfit : (answer room conn fetch rd d).overflow = false)
    (haccepts : ∀ c ∈ actuators d b, (d.obj c).Accepts (d.obj c).num)
    (hrestore : d'.find restore.target = some b ∧ restore.level = 3 ∧ restore.index = 26)
    (hblob : p.read m = (answer room conn fetch rd d).response.params) :
    ((answer room' conn' restore (Reader.init p m) d').response.status = .ok ∧
      ∀ c ∈ actuators d b,
        ((answer room' conn' restore (Reader.init p m) d').dev.obj c).num = (d.obj c).num) ↔
      ({ d' with activeConn := some conn' } : Device K).gate b 3 26 = none ∧ d.Settled b ∧
        ∀ c ∈ actuators d b, (d.obj c).kind = .identify → (d'.obj c).num = (d.obj c).num := by
  have ht := reach_tree hreach
  obtain ⟨hf, hlevel, hindex⟩ := hrestore
  let call : Call K :=
    ⟨{ d' with activeConn := some conn' }, Reader.init p m, Writer.init room', 0⟩
  have hbelow (c : ObjRef) (hc : c ∈ (descendants d b).map Prod.snd) : c < d.objects.length := by
    obtain ⟨e, he, rfl⟩ := List.mem_map.1 hc
    exact (ht.later e.1 e.2 ((ht.lists b).container e he)).2
  have hmember (c : ObjRef) (hc : c ∈ paramObjects d b) : c < d.objects.length ∧
      isParamKind (d.obj c).kind = true ∧
        clampToRange (d.obj c) (d.obj c).num = (d.obj c).num := by
    obtain ⟨hc', hk⟩ := List.mem_filter.1 hc
    have hlt := hbelow c hc'
    exact ⟨hlt, hk, clampToRange_of_accepts (reach_usual hreach c hlt)
      (haccepts c (mem_actuators_iff.2 (.inl hc)))⟩
  have hentries : (paramObjects d b).flatMap d.paramFields =
      (d.entries (paramObjects d b)).flatMap entryFields := by
    rw [entries, List.flatMap_map]
    rfl
  have hparams : recallParams (Reader.init p m) = some (d.entries (paramObjects d b), false) := by
    rw [response_snapshot hfetch.1 hkind hfetch.2.1 hfetch.2.2 hfit, hentries] at hblob
    have hlen := length_snapshot ht b
    rw [hentries] at hlen
    refine recallParams_blob ?_ hlen hblob
    rw [count_snapshot ht b, entries, List.length_map]
  -- status and device of the answer are those of the method
  have hexec : execCommand conn' restore call = ((objectDispatch b 3 26 call).1,
      { (objectDispatch b 3 26 call).2 with
        dev := (objectDispatch b 3 26 call).2.dev.emit
          (.command conn' restore (objectDispatch b 3 26 call).1) }) := by
    have hfind : call.dev.find restore.target = some b := hf
    simp only [execCommand, hfind, hlevel, hindex]
  have hstatus : (answer room' conn' restore (Reader.init p m) d').response.status =
      (objectDispatch b 3 26 call).1 := by
    change (execCommand conn' restore call).1 = _
    rw [hexec]
  have hnum (c : ObjRef) : ((answer room' conn' restore (Reader.init p m) d').dev.obj c).num =
      ((objectDispatch b 3 26 call).2.dev.obj c).num := by
    change ((execCommand conn' restore call).2.dev.obj c).num = _
    rw [hexec]
    rfl
  simp only [hstatus, hnum]
  -- behind the gate stands the recall
  have hrecall (hgate : call.dev.gate b 3 26 = none) : (objectDispatch b 3 26 call).1 = .ok ∧
      (objectDispatch b 3 26 call).2.dev = call.dev.recall (d.entries (paramObjects d b)) := by
    have hk : (call.dev.obj b).kind = .block := (h.kind b).trans hkind
    have happly := applyParameterData_dev call
    rw [← objectDispatch_of_recalls ⟨hk, rfl, rfl, hgate⟩ rfl, hparams] at happly
    exact Prod.mk.inj happly
  have hleft (hgate : call.dev.gate b 3 26 = none) {c : ℕ} (hc : c ∈ paramObjects d b)
      {q : ObjRef} (hq : d.lastStore (paramObjects d b) c = some q) :
      ((objectDispatch b 3 26 call).2.dev.obj c).num = (d.obj q).num := by
    rw [(hrecall hgate).2, num_recall ht.registry (h.active _) hmember (hmember c hc).1, hq]
    rfl
  have hkept (hgate : call.dev.gate b 3 26 = none) {c : ℕ}
      (hc : c ∈ (descendants d b).map Prod.snd) (hk : (d.obj c).kind = .identify) :
      ((objectDispatch b 3 26 call).2.dev.obj c).num = (d'.obj c).num := by
    have hnone := lastStore_identify (fun q hq => (hmember q hq).2.1) hk
    rw [(hrecall hgate).2, num_recall ht.registry (h.active _) hmember (hbelow c hc), hnone]
    rfl
  constructor
  · rintro ⟨hok, hback⟩
    have hgate := gate_of_ok hok
    refine ⟨hgate, fun c hc q hq => ?_, fun c hc hk => ?_⟩
    · exact (hleft hgate hc hq).symm.trans (hback c (mem_actuators_iff.2 (.inl hc)))
    · exact (hkept hgate (List.mem_of_mem_filter hc) hk).symm.trans (hback c hc)
  · rintro ⟨hgate, hsettled, hsame⟩
    refine ⟨(hrecall hgate).1, fun c hc => ?_⟩
    obtain hmem | ⟨hmem, hk⟩ := mem_actuators_iff.1 hc
    · obtain ⟨q, hq⟩ := lastStore_of_mem (d := d) hmem
      exact (hleft hgate hmem hq).trans (hsettled c hmem q hq)
    · exact (hkept hgate hmem hk).trans (hsame c hc hk)

end RoundTrip

namespace Sample

/-- The same device with the mute on; its proxy is still off. -/
def groupedMuted : Device .default := (sent 4097 4 2 1 [1]).run grouped

theorem reach_groupedMuted : (control .default).Reach groupedMuted :=
  reach_action (sent 4097 4 2 1 [1]) reach_grouped trivial

/-- The request of a snapshot of the root block. -/
def fetchRoot : Command := ⟨7, 100, 3, 25, 0, []⟩

/-- Its recall. -/
def applyRoot : Command := ⟨8, 100, 3, 26, 1, []⟩

/-- The snapshot of `grouped`: mute and proxy are off. -/
def offOff : Bytes := [0, 0, 0, 26, 0, 2, 0, 0, 0x10, 1, 0x40, 0, 0, 0, 0, 0, 0, 0,
  0, 0, 0x10, 2, 0x40, 0, 0, 0, 0, 0, 0, 0]

/-- The snapshot of `groupedMuted`: the mute is on, the proxy off. -/
def onOff : Bytes := [0, 0, 0, 26, 0, 2, 0, 0, 0x10, 1, 0x3F, 0xF0, 0, 0, 0, 0, 0, 0,
  0, 0, 0x10, 2, 0x40, 0, 0, 0, 0, 0, 0, 0]

theorem sameObjects_groupedMuted : SameObjects grouped groupedMuted :=
  .of_shape (by decide +kernel)

/-- Where mute and proxy agree, the recall turns the mute off again. -/
theorem restored_grouped : (groupedMuted.obj 4).num = .ofNat 1 ∧
    ((answer 2048 0 applyRoot (Reader.ofBytes offOff) groupedMuted).dev.obj 4).num = .ofNat 2 := by
  refine ⟨by decide, ?_⟩
  have hmembers : paramObjects grouped 2 = [4, 5] := by decide
  have hoff : (grouped.obj 4).num = .ofNat 2 ∧ (grouped.obj 5).num = .ofNat 2 := by decide
  have hactuators : actuators grouped 2 = [4, 5] := by decide
  have haccepts : ∀ c ∈ actuators grouped 2, (grouped.obj c).Accepts (grouped.obj c).num := by
    rw [hactuators]
    intro c hc
    have hread : setting (grouped.obj c) (Reader.ofBytes [2]) = some (grouped.obj c).num := by
      revert c
      decide
    exact ⟨_, hread⟩
  have hsettled : grouped.Settled 2 := by
    intro c hc q hq
    have hsame : ∀ i ∈ [4, 5], (grouped.obj i).num = .ofNat 2 := by decide
    have hq : q ∈ [4, 5] := hmembers ▸ List.mem_reverse.1 (List.mem_of_find?_eq_some hq)
    exact (hsame q hq).trans (hsame c (hmembers ▸ hc)).symm
  have h := (@restored_iff .default grouped groupedMuted 2 reach_grouped sameObjects_groupedMuted
    2048 0 2048 0 fetchRoot applyRoot (Reader.ofBytes []) (Ptr.ofBytes offOff fun _ => 0) 30
    (by decide) (by decide) (by decide +kernel) haccepts (by decide) (by decide +kernel)).2
    ⟨by decide, hsettled, ?_⟩
  · exact (h.2 4 (by rw [hactuators]; decide)).trans hoff.1
  · have hplain : ∀ c ∈ [4, 5], (grouped.obj c).kind ≠ .identify := by decide
    exact fun c hc hk => absurd hk (hplain c (hactuators ▸ hc))

/-- The mute is restored, and turned off by its proxy right after. -/
theorem not_restored_groupedMuted : (control .default).Reach groupedMuted ∧
    groupedMuted.find fetchRoot.target = some 2 ∧ (groupedMuted.obj 2).kind = .block ∧
      (answer 2048 0 fetchRoot (Reader.ofBytes []) groupedMuted).response.params = onOff ∧
        4 ∈ actuators groupedMuted 2 ∧
          (∀ c ∈ actuators groupedMuted 2,
            (groupedMuted.obj c).Accepts (groupedMuted.obj c).num) ∧
            ((answer 2048 0 applyRoot (Reader.ofBytes onOff) groupedMuted).dev.obj 4).num ≠
              (groupedMuted.obj 4).num := by
  refine ⟨reach_groupedMuted, by decide, by decide, by decide +kernel, by decide, fun c hc => ?_,
    by decide⟩
  have hactuators : actuators groupedMuted 2 = [4, 5] := by decide
  have hc : c = 4 ∨ c = 5 := by simpa [hactuators] using hc
  rcases hc with rfl | rfl
  · exact ⟨Reader.ofBytes [1], by decide⟩
  · exact ⟨Reader.ofBytes [2], by decide⟩

end Sample

end Aes70
