import Aes70.Class.Enrolment
import Aes70.Server.Tree

/-!
# A grouper serves a grouping

What a grouper answers, and what it stores, depends on the grouping its tables represent, and not on
how they represent it.

* `Groups.serve` : the eleven methods on groups, citizens and enrolments, from the grouping alone.
* `grouperDispatch_serves` : the method handler answers this way, and leaves this grouping.
* `Action.regroup` : the grouping a step leaves; every other step leaves it as it is.
* `grouper_refines` : in every run, every grouper represents a grouping and serves it.
-/

namespace Aes70

open Device Handler

variable {K : Kconfig}

/-! ### The abstract service -/

/-- What a method answers, and the grouping it leaves. -/
structure Served where
  status : Status
  left : Groups
  fields : List Field

namespace Groups

variable (γ : Groups)

/-- The first place without a group. -/
def freeGroup : Option (Fin 16) := (List.finRange 16).find? fun s => (γ.groups s).isNone

/-- The first place without a citizen. -/
def freeCitizen : Option (Fin 32) := (List.finRange 32).find? fun c => (γ.citizens c).isNone

/-- The groups in the order of their places. -/
def groupList : List (Fin 16 × Bytes × UInt32) :=
  (List.finRange 16).filterMap fun s => (γ.groups s).map fun a => (s, a)

/-- The citizens in the order of their places. -/
def citizenList : List (Fin 32 × UInt32) :=
  (List.finRange 32).filterMap fun c => (γ.citizens c).map fun ono => (c, ono)

/-- The citizens enrolled in a group. -/
def memberList (s : Fin 16) : List (Fin 32 × UInt32) :=
  γ.citizenList.filter fun e => γ.enrolled s e.1

/-- A group as it is sent. -/
def groupFields (e : Fin 16 × Bytes × UInt32) : List Field :=
  [.u16 (slotIndex e.1), .string e.2.1, .u32 e.2.2]

/-- A citizen as it is sent: on this device, and online. -/
def citizenFields (e : Fin 32 × UInt32) : List Field :=
  [.u16 (slotIndex e.1), .u16 0, .u32 e.2, .u8 1]

/-- A list as it is sent. -/
def listFields {α : Type} (xs : List α) (f : α → List Field) : List Field :=
  .u16 (UInt16.ofNat xs.length) :: xs.flatMap f

/-- Nothing happens. -/
def refuse (st : Status) : Served := ⟨st, γ, []⟩

/-- The grouping `γ` is left, with this result. -/
def done (fs : List Field) : Served := ⟨.ok, γ, fs⟩

/-- Go on with what the parameters hold, if they are complete. -/
def reading {α : Type} (r : Read α) (rd : Reader) (k : α → Served) : Served :=
  if (r rd).2.err then γ.refuse .badFormat else k (r rd).1

/-- The parameters of AddCitizen: the length of the host name, and the number. -/
def readCitizen : Read (ℕ × UInt32) := do
  let _ ← Read.u16
  let host ← Read.blob
  let ono ← Read.u32
  let _ ← Read.u8
  return ((host.getD []).length, ono)

/-- The methods on groups, citizens and enrolments. -/
def methods : List UInt16 := [1, 2, 3, 4, 5, 6, 7, 8, 9, 10, 11]

/-- The methods of a grouper for citizens of this kind, on the device `d`. -/
def serve (d : Device K) (kind : Kind) (rd : Reader) (idx : UInt16) : Served :=
  match idx with
  | 1 => -- AddGroup
    γ.reading (Read.string 40) rd fun name =>
      match γ.freeGroup with
      | none => γ.refuse .outOfMemory
      | some s =>
        if K.maxObjects ≤ d.objects.length then γ.refuse .processingFailed
        else done (γ.setGroup s (some (name, d.nextOno))) [.u16 (slotIndex s), .u32 d.nextOno]
  | 2 => -- DeleteGroup
    γ.reading Read.u16 rd fun gi =>
      match slot? 16 gi with
      | some s =>
        if (γ.groups s).isSome then done (γ.setGroup s none) [] else γ.refuse .parameterOutOfRange
      | none => γ.refuse .parameterOutOfRange
  | 3 => γ.done [.u16 (UInt16.ofNat γ.groupList.length)] -- GetGroupCount
  | 4 => γ.done (listFields γ.groupList groupFields) -- GetGroupList
  | 5 => -- AddCitizen
    γ.reading readCitizen rd fun p =>
      if p.1 ≠ 0 then γ.refuse .notImplemented else
        match d.find p.2 with
        | none => γ.refuse .badOno
        | some t =>
          if (d.obj t).kind ≠ kind then γ.refuse .parameterError else
            match γ.freeCitizen with
            | none => γ.refuse .outOfMemory
            | some c => done (γ.setCitizen c (some p.2)) [.u16 (slotIndex c)]
  | 6 => -- DeleteCitizen
    γ.reading Read.u16 rd fun ci =>
      match slot? 32 ci with
      | some c =>
        if (γ.citizens c).isSome then done (γ.setCitizen c none) []
        else γ.refuse .parameterOutOfRange
      | none => γ.refuse .parameterOutOfRange
  | 7 => γ.done [.u16 (UInt16.ofNat γ.citizenList.length)] -- GetCitizenCount
  | 8 => γ.done (listFields γ.citizenList citizenFields) -- GetCitizenList
  | 9 => -- GetEnrollment
    γ.reading readEnrollment rd fun p =>
      match slot? 16 p.1, slot? 32 p.2 with
      | some s, some c => γ.done [.u8 (flag (γ.enrolled s c))]
      | _, _ => γ.refuse .parameterOutOfRange
  | 10 => -- SetEnrollment
    γ.reading (do return (← readEnrollment, ← Read.u8)) rd fun p =>
      match slot? 16 p.1.1, slot? 32 p.1.2 with
      | some s, some c =>
        if (γ.groups s).isNone || (γ.citizens c).isNone then γ.refuse .parameterError
        else done (γ.setEnrolled s c (p.2 != 0)) []
      | _, _ => γ.refuse .parameterOutOfRange
  | 11 => -- GetGroupMemberList
    γ.reading Read.u16 rd fun gi =>
      match slot? 16 gi with
      | some s => γ.done (listFields (γ.memberList s) citizenFields)
      | none => γ.refuse .parameterOutOfRange
  | _ => γ.refuse .badMethod

end Groups

/-! ### The tables and the lists -/

namespace GrouperPriv.Represents

variable {g : GrouperPriv} {γ : Groups} (h : g.Represents γ)
include h

theorem freeGroup : γ.freeGroup = g.freeGroup := by
  unfold Groups.freeGroup GrouperPriv.freeGroup
  refine congrArg (fun p => (List.finRange 16).find? p) (funext fun s => ?_)
  rw [← h.group_isSome, ← Option.not_isSome]

theorem freeCitizen : γ.freeCitizen = g.freeCitizen := by
  unfold Groups.freeCitizen GrouperPriv.freeCitizen
  refine congrArg (fun p => (List.finRange 32).find? p) (funext fun c => ?_)
  rw [← h.citizen_isSome, ← Option.not_isSome]

theorem groupList : γ.groupList =
    g.usedGroups.map fun s => (s, (g.groups s).name, (g.groups s).proxyOno) := by
  unfold Groups.groupList usedGroups
  rw [← List.filterMap_eq_map, ← List.filterMap_eq_filter, List.filterMap_filterMap]
  refine List.filterMap_congr fun s _ => ?_
  rw [h.groups]
  cases hu : (g.groups s).used <;> simp [Option.guard, hu]

theorem citizenList : γ.citizenList = g.usedCitizens.map fun c => (c, (g.citizens c).ono) := by
  unfold Groups.citizenList usedCitizens
  rw [← List.filterMap_eq_map, ← List.filterMap_eq_filter, List.filterMap_filterMap]
  refine List.filterMap_congr fun c _ => ?_
  rw [h.citizens]
  cases hu : (g.citizens c).used <;> simp [Option.guard, hu]

theorem memberList (s : Fin 16) :
    γ.memberList s = (g.members s).map fun c => (c, (g.citizens c).ono) := by
  rw [Groups.memberList, h.citizenList, usedCitizens, members, List.filter_map, List.filter_filter]
  refine congrArg (List.map _) (List.filter_congr fun c _ => ?_)
  simp [h.enrolled, Bool.and_comm]

theorem groups_fields :
    g.usedGroups.flatMap (wrGroup g) = γ.groupList.flatMap Groups.groupFields := by
  rw [h.groupList, List.flatMap_map]
  rfl

/-- Citizens in use are online. -/
theorem citizen_fields {cs : List (Fin 32)} (hcs : ∀ c ∈ cs, (g.citizens c).used = true) :
    cs.flatMap (wrCitizen g) =
      (cs.map fun c => (c, (g.citizens c).ono)).flatMap Groups.citizenFields := by
  rw [List.flatMap_map]
  refine List.flatMap_congr fun c hc => ?_
  simp [wrCitizen, Groups.citizenFields, h.online c (hcs c hc), flag]

end GrouperPriv.Represents

/-! ### The method handler -/

/-- The object is a grouper for citizens of this kind, and its tables represent the grouping. -/
def Obj.Holds (o : Obj) (kind : Kind) (γ : Groups) : Prop :=
  ∃ g, o.priv = .grouper g ∧ g.citizenKind = kind ∧ g.Represents γ

/-- Calls of `h` answer `s` and leave the grouping of `s` in object `i`. -/
def Handler.ServesAs (h : Handler K) (d : Device K) (rd : Reader) (i : ObjRef) (kind : Kind)
    (s : Served) : Prop :=
  ∀ pc, ∃ (e : Effect K) (r : Reader), (∀ wr, h ⟨d, rd, wr, pc⟩ = e.on r wr) ∧
    e.status = s.status ∧ e.fields = s.fields ∧ (e.dev.obj i).Holds kind s.left

section Handlers

variable {d : Device K} {rd : Reader} {i : ObjRef} {kind : Kind} {γ γ' : Groups}

theorem serves_ret (h : (d.obj i).Holds kind γ) (st : Status) :
    ServesAs (ret st) d rd i kind (γ.refuse st) := fun pc =>
  ⟨⟨st, d, [], pc⟩, rd, fun _ => rfl, rfl, rfl, h⟩

theorem serves_reply (h : (d.obj i).Holds kind γ) (fs : List Field) :
    ServesAs (reply 1 fs) d rd i kind (γ.done fs) := fun _ =>
  ⟨⟨.ok, d, fs, 1⟩, rd, fun _ => rfl, rfl, rfl, h⟩

theorem serves_store {f : Device K → Device K} (h : ((f d).obj i).Holds kind γ') :
    ServesAs (store f) d rd i kind (γ'.done []) := fun pc =>
  ⟨⟨.ok, f d, [], pc⟩, rd, fun _ => rfl, rfl, rfl, h⟩

theorem serves_storeReply {f : Device K → Device K} {n : UInt8} {fs : List Field}
    (h : ((f d).obj i).Holds kind γ') : ServesAs (storeReply f n fs) d rd i kind (γ'.done fs) :=
  fun _ => ⟨⟨.ok, f d, fs, n⟩, rd, fun _ => rfl, rfl, rfl, h⟩

theorem serves_reading (h : (d.obj i).Holds kind γ) {α : Type} {r : Read α} {k : α → Handler K}
    {k' : α → Served} (hk : ServesAs (k (r rd).1) d (r rd).2 i kind (k' (r rd).1)) :
    ServesAs (Handler.reading r k) d rd i kind (γ.reading r rd k') := by
  intro pc
  unfold Groups.reading
  cases herr : (r rd).2.err with
  | true => exact ⟨⟨.badFormat, d, [], pc⟩, (r rd).2, fun _ => reading_of_err herr, rfl, rfl, h⟩
  | false =>
    obtain ⟨e, rd', hcall, hrest⟩ := hk pc
    have hread (wr : Writer) : Handler.reading r k ⟨d, rd, wr, pc⟩ =
        k (r rd).1 ⟨d, (r rd).2, wr, pc⟩ := reading_of_ok rfl herr
    exact ⟨e, rd', fun wr => (hread wr).trans (hcall wr), hrest⟩

theorem serves_ite {p : Prop} [Decidable p] {h k : Handler K} {s t : Served}
    (hh : p → ServesAs h d rd i kind s) (hk : ¬p → ServesAs k d rd i kind t) :
    ServesAs (if p then h else k) d rd i kind (if p then s else t) := by
  by_cases hp : p
  · rw [if_pos hp, if_pos hp]
    exact hh hp
  · rw [if_neg hp, if_neg hp]
    exact hk hp

theorem serves_look {f : Device K → Handler K} {s : Served} (h : ServesAs (f d) d rd i kind s) :
    ServesAs (look f) d rd i kind s := fun pc => h pc

/-- The proxy that is allocated takes the next number. -/
theorem proxy_of_alloc {parent : Option ObjRef} {role : Bytes} {proxy : ObjRef} {e : Device K}
    (halloc : d.objectAlloc kind parent role = (some proxy, e)) :
    d.objects.length < K.maxObjects ∧ proxy = d.objects.length ∧
      e.objects.length = d.objects.length + 1 ∧
        ((e.modifyObj proxy initProxy).obj proxy).ono = d.nextOno := by
  obtain ⟨hroom, hnew, he⟩ := objectAlloc_some halloc
  have hlen : e.objects.length = d.objects.length + 1 := by
    rw [he, length_blockAddMember]
    simp [registered]
  refine ⟨hroom, hnew, hlen, ?_⟩
  have hono : (e.obj proxy).ono = d.nextOno := by
    rw [he, obj_blockAddMember (p := Obj.ono) (fun _ _ => by rfl) (fun _ _ => by rfl), hnew]
    simp [registered, obj, Obj.fresh]
  rw [obj_modifyObj_self (by rw [hnew, hlen]; exact Nat.lt_succ_self _)]
  exact (congrArg Prod.fst (initProxy_ident _)).trans hono

theorem holds_storeGrouper (hi : i < d.objects.length) {g : GrouperPriv} (hk : g.citizenKind = kind)
    (h : g.Represents γ) : ((storeGrouper i g d).obj i).Holds kind γ := by
  refine ⟨g, ?_, hk, h⟩
  rw [storeGrouper, obj_modifyObj_self hi]

section Tables

variable {g : GrouperPriv} (hi : i < d.objects.length) (hp : (d.obj i).priv = .grouper g)
  (hk : g.citizenKind = kind) (h : g.Represents γ)
include hi hp hk h

theorem addGroup_serves :
    ServesAs (addGroup i g) d rd i kind (γ.serve d kind rd 1) := by
  have hself : (d.obj i).Holds kind γ := ⟨g, hp, hk, h⟩
  refine serves_reading hself ?_
  have hname : (Read.string 40 rd).1.length < 40 :=
    Nat.lt_of_le_of_lt (Read.length_string_le 40 rd) (by decide)
  generalize (Read.string 40 rd).1 = name at hname
  generalize (Read.string 40 rd).2 = rest
  rw [h.freeGroup]
  cases g.freeGroup with
  | none => exact serves_ret hself _
  | some s =>
    refine serves_look ?_
    dsimp only
    cases halloc : d.objectAlloc g.citizenKind d.rootBlock name with
    | mk new e =>
      cases new with
      | none =>
        obtain ⟨hfull, rfl⟩ := objectAlloc_none halloc
        rw [if_pos hfull]
        exact fun pc => ⟨⟨.processingFailed, _, [], pc⟩, rest, fun _ => rfl, rfl, rfl, hself⟩
      | some proxy =>
        obtain ⟨hroom, hnew, hlen, hono⟩ := proxy_of_alloc halloc
        rw [if_neg (Nat.not_le.2 hroom)]
        dsimp only
        rw [hono]
        have hi' : i < (e.modifyObj proxy initProxy).objects.length := by
          rw [length_modifyObj, hlen]
          exact Nat.lt_succ_of_lt hi
        exact serves_storeReply (holds_storeGrouper hi' hk (h.addGroup s hname d.nextOno))

theorem addCitizen_serves :
    ServesAs (addCitizen i g) d rd i kind (γ.serve d kind rd 5) := by
  have hself : (d.obj i).Holds kind γ := ⟨g, hp, hk, h⟩
  refine serves_reading (r := Groups.readCitizen) hself ?_
  generalize (Groups.readCitizen rd).1 = p
  generalize (Groups.readCitizen rd).2 = rest
  obtain ⟨hostLen, ono⟩ := p
  refine serves_look (serves_ite (fun _ => serves_ret hself _) fun _ => ?_)
  rw [h.freeCitizen, ← hk]
  dsimp only
  cases d.find ono with
  | none => exact hk ▸ serves_ret hself _
  | some t =>
    refine serves_ite (fun _ => hk ▸ serves_ret hself _) fun _ => ?_
    cases hfree : g.freeCitizen with
    | none => exact hk ▸ serves_ret hself _
    | some c =>
      have hfree : (g.citizens c).used = false := by simpa using List.find?_some hfree
      exact hk ▸ serves_storeReply (holds_storeGrouper hi hk (h.addCitizen hfree ono))

theorem setEnrollment_serves :
    ServesAs (setEnrollment i g) d rd i kind (γ.serve d kind rd 10) := by
  have hself : (d.obj i).Holds kind γ := ⟨g, hp, hk, h⟩
  refine serves_reading (r := do return (← readEnrollment, ← Read.u8)) hself ?_
  generalize Prod.fst _ = p
  generalize Prod.snd _ = rest
  obtain ⟨⟨gi, ci⟩, on⟩ := p
  dsimp only
  cases slot? 16 gi with
  | none => exact serves_ret hself _
  | some s =>
    cases slot? 32 ci with
    | none => exact serves_ret hself _
    | some c =>
      dsimp only
      rw [h.group_isNone, h.citizen_isNone]
      refine serves_ite (fun _ => serves_ret hself _) fun hused => ?_
      obtain ⟨hs, hc⟩ : (g.groups s).used = true ∧ (g.citizens c).used = true := by
        simpa using hused
      exact serves_store (holds_storeGrouper hi hk (h.setEnroll hs hc _))

omit hi in
/-- A list result. -/
theorem replyList_serves {α β : Type} {xs : List α} {wr : α → List Field} {ys : List β}
    {f : β → List Field} (hlen : xs.length = ys.length) (hfields : xs.flatMap wr = ys.flatMap f) :
    ServesAs (replyList xs wr) d rd i kind (γ.done (Groups.listFields ys f)) := by
  have hself : (d.obj i).Holds kind γ := ⟨g, hp, hk, h⟩
  rw [replyList, hlen, hfields]
  exact serves_reply hself _

/-- **The handler serves the grouping.** -/
theorem grouperDispatch_serves {idx : UInt16} (hidx : idx ∈ Groups.methods) :
    ServesAs (grouperDispatch i idx) d rd i kind (γ.serve d kind rd idx) := by
  have hself : (d.obj i).Holds kind γ := ⟨g, hp, hk, h⟩
  -- the lists of the handler and of the grouping are of the same length
  have hgroups : g.usedGroups.length = γ.groupList.length := by rw [h.groupList, List.length_map]
  have hcitizens : g.usedCitizens.length = γ.citizenList.length := by
    rw [h.citizenList, List.length_map]
  refine serves_look ?_
  simp only [hp]
  simp only [Groups.methods, List.mem_cons, List.not_mem_nil, or_false] at hidx
  rcases hidx with rfl | rfl | rfl | rfl | rfl | rfl | rfl | rfl | rfl | rfl | rfl
  · exact addGroup_serves hi hp hk h
  · -- DeleteGroup
    refine serves_reading hself ?_
    cases slot? 16 (Read.u16 rd).1 with
    | none => exact serves_ret hself _
    | some s =>
      dsimp only
      rw [h.group_isSome]
      exact serves_ite (fun _ => serves_store (holds_storeGrouper hi hk (h.deleteGroup s)))
        fun _ => serves_ret hself _
  · -- GetGroupCount
    rw [hgroups]
    exact serves_reply hself _
  · exact replyList_serves hp hk h hgroups h.groups_fields
  · exact addCitizen_serves hi hp hk h
  · -- DeleteCitizen
    refine serves_reading hself ?_
    cases slot? 32 (Read.u16 rd).1 with
    | none => exact serves_ret hself _
    | some c =>
      dsimp only
      rw [h.citizen_isSome]
      have hkind := (g.citizenKind_deleteCitizen c).trans hk
      exact serves_ite (fun _ => serves_store (holds_storeGrouper hi hkind (h.deleteCitizen c)))
        fun _ => serves_ret hself _
  · -- GetCitizenCount
    rw [hcitizens]
    exact serves_reply hself _
  · -- GetCitizenList
    refine replyList_serves hp hk h hcitizens ?_
    rw [h.citizenList]
    exact h.citizen_fields fun c hc => (List.mem_filter.1 hc).2
  · -- GetEnrollment
    refine serves_reading (r := readEnrollment) hself ?_
    generalize (readEnrollment rd).1 = p
    generalize (readEnrollment rd).2 = rest
    obtain ⟨gi, ci⟩ := p
    dsimp only
    cases slot? 16 gi with
    | none => exact serves_ret hself _
    | some s =>
      cases slot? 32 ci with
      | none => exact serves_ret hself _
      | some c =>
        dsimp only
        rw [h.enrolled]
        exact serves_reply hself _
  · exact setEnrollment_serves hi hp hk h
  · -- GetGroupMemberList
    refine serves_reading hself ?_
    cases slot? 16 (Read.u16 rd).1 with
    | none => exact serves_ret hself _
    | some s =>
      refine replyList_serves hp hk h (by rw [h.memberList, List.length_map]) ?_
      rw [h.memberList]
      refine h.citizen_fields fun c hc => ?_
      exact (Bool.and_eq_true_iff.1 (List.mem_filter.1 hc).2).1

end Tables

end Handlers

/-! ### What leaves the tables alone -/

section Frame

variable {d d' : Device K} {i j : ObjRef} {level index : UInt16}

/-- The other methods of a grouper concern its mode. -/
theorem grouperDispatch_represents {g : GrouperPriv} {kind : Kind} {γ : Groups} {idx : UInt16}
    (hi : i < d.objects.length) (hp : (d.obj i).priv = .grouper g) (hk : g.citizenKind = kind)
    (h : g.Represents γ) (hidx : idx ∉ Groups.methods) :
    Does (grouperDispatch i idx) d fun _ d' => (d'.obj i).Holds kind γ := by
  have hself : (d.obj i).Holds kind γ := ⟨g, hp, hk, h⟩
  refine does_look ?_
  simp only [hp]
  split
  all_goals try exact absurd (by decide) hidx
  · exact does_reply hself
  · exact does_reading hself fun v =>
      does_store (holds_storeGrouper (g := { g with actuator := v != 0 }) hi hk
        (h.congr rfl rfl rfl))
  · exact does_reply hself
  · exact does_reading hself fun m => does_ite (fun _ => does_ret hself) fun _ =>
      does_store (holds_storeGrouper (g := { g with mode := m }) hi hk (h.congr rfl rfl rfl))
  · exact does_ret hself

theorem holds_of_priv {o o' : Obj} {kind : Kind} {γ : Groups} (h : o.Holds kind γ)
    (hp : o'.priv = o.priv) : o'.Holds kind γ := by
  obtain ⟨g, hg, hrest⟩ := h
  exact ⟨g, hp.trans hg, hrest⟩

/-- A call of a grouper that is not one of the methods on groups, or stopped by the gate. -/
theorem objectDispatch_keeps {kind : Kind} {γ : Groups} {idx : UInt16} (hi : i < d.objects.length)
    (hk : (d.obj i).kind = .grouper) (h : (d.obj i).Holds kind γ)
    (hnot : ¬(level = 3 ∧ idx ∈ Groups.methods ∧ d.gate i level idx = none)) :
    Does (objectDispatch i level idx) d fun _ d' => (d'.obj i).Holds kind γ := by
  intro c hc
  cases hg : d.gate i level idx with
  | some st => rw [objectDispatch_of_gate hg hc]; exact h
  | none =>
    cases hh : handlerFor (K := K) (d.obj i).kind level with
    | none =>
      rw [objectDispatch_of_none (by rw [hc]; exact hh), hc]
      exact h
    | some m =>
      rw [objectDispatch_of_handler hh hg hc]
      have hof := handlerOf_of_handlerFor hh
      rw [hk] at hof
      cases hof with
      | root => exact holds_of_priv h (rootDispatch_congr (fun _ _ _ => by rfl) i idx c hc)
      | worker _ hne | sensor _ hne | levelSensor _ hne | gain _ hne | state2 _ hne
      | basic _ hne => simp at hne
      | agent => exact holds_of_priv h (agentDispatch_congr (fun _ _ => by rfl) i idx c hc)
      | grouper =>
        obtain ⟨g, hp, hkind, hrep⟩ := h
        exact grouperDispatch_represents hi hp hkind hrep (fun hidx => hnot ⟨rfl, hidx, hg⟩) c hc

end Frame

/-! ### Steps and runs -/

section Runs

variable {d : Device K} {i : ObjRef} {kind : Kind} {γ : Groups}

/-- The command is one of the methods on groups, for the grouper `i`, and let through. -/
def Device.OnGroups (d : Device K) (i : ObjRef) (conn : ℕ) (cmd : Command) : Prop :=
  d.find cmd.target = some i ∧ cmd.level = 3 ∧ cmd.index ∈ Groups.methods ∧
    ({ d with activeConn := some conn } : Device K).gate i cmd.level cmd.index = none

instance (d : Device K) (i : ObjRef) (conn : ℕ) (cmd : Command) : Decidable (d.OnGroups i conn cmd) :=
  inferInstanceAs (Decidable (_ ∧ _))

/-- The grouping a step leaves in the grouper `i` for citizens of this kind. -/
def Action.regroup (d : Device K) (i : ObjRef) (kind : Kind) (γ : Groups) : Action K → Groups
  | .operation (.command conn cmd rd) =>
    if d.OnGroups i conn cmd then (γ.serve d kind rd cmd.index).left else γ
  | _ => γ

/-- A method on groups, called on the grouper. -/
theorem objectDispatch_serves {idx : UInt16} {rd : Reader} (hi : i < d.objects.length)
    (hk : (d.obj i).kind = .grouper) (h : (d.obj i).Holds kind γ) (hidx : idx ∈ Groups.methods)
    (hg : d.gate i 3 idx = none) :
    ServesAs (objectDispatch i 3 idx) d rd i kind (γ.serve d kind rd idx) := by
  obtain ⟨g, hp, hkind, hrep⟩ := h
  intro pc
  have hserves : ServesAs (grouperDispatch i idx) d rd i kind (γ.serve d kind rd idx) :=
    grouperDispatch_serves hi hp hkind hrep hidx
  obtain ⟨e, r, hcall, hrest⟩ := hserves pc
  refine ⟨e, r, fun wr => ?_, hrest⟩
  rw [objectDispatch_of_handler (h := grouperDispatch) (by rw [hk]; rfl) hg rfl]
  exact hcall wr

/-- A set request changes the value of an object that is of no DSP class. -/
theorem applySet_congr {α : Type} {p : Obj → α} (hnum : ∀ o v, p { o with num := v } = p o)
    (hstr : ∀ o t, p { o with str := t } = p o) (hk : dspIsDspKind (d.obj i).kind = false)
    (req : SetReq) : p ((d.applySet req).obj i) = p (d.obj i) := by
  unfold applySet
  cases d.find req.ono with
  | none => rfl
  | some j =>
    dsimp only
    cases hdsp : dspIsDspKind (d.obj j).kind with
    | true =>
      have hne : j ≠ i := by
        rintro rfl
        cases hk.symm.trans hdsp
      simp only [if_true, dspApplySet_eq]
      cases req.write (d.obj j) with
      | none => rfl
      | some w =>
        have hcore := core_dspWrite d j ((d.obj j).priv.write w) w.sel false
        exact (congrArg p (obj_eq_of_core hcore i)).trans (congrArg p (obj_modifyObj_ne hne _))
    | false =>
      simp only [Bool.false_eq_true, if_false]
      cases primaryProperty (d.obj j).kind with
      | none => rfl
      | some prop =>
        dsimp only
        split
        · have hcore := core_commitStr d j req.str prop.1 prop.2 false
          exact (congrArg p (obj_eq_of_core hcore i)).trans
            (obj_modifyObj_congr p (fun o => hstr o _) d j i)
        · have hcore := core_commitNum_app d j (clampSet (d.obj j) req.num) prop.1 prop.2
          exact (congrArg p (obj_eq_of_core hcore i)).trans
            (obj_modifyObj_congr p (fun o => hnum o _) d j i)

/-- A constructor leaves the old objects alone, up to the links. -/
theorem create_congr {α : Type} {p : Obj → α} (hchildren : ∀ o cs, p { o with children := cs } = p o)
    (howner : ∀ o n, p { o with ownerOno := n } = p o) (call : Create) (parent : Option ObjRef)
    (role : Bytes) (hi : i < d.objects.length) :
    p ((d.create call parent role).obj i) = p (d.obj i) := by
  unfold create
  cases halloc : d.objectAlloc call.kind parent role with
  | mk new e =>
    cases new with
    | none =>
      obtain ⟨-, rfl⟩ := objectAlloc_none halloc
      rfl
    | some j =>
      obtain ⟨-, hnew, -⟩ := objectAlloc_some halloc
      have hne : j ≠ i := by
        rw [hnew]
        exact hi.ne'
      dsimp only
      rw [obj_modifyObj_ne hne]
      exact obj_objectAlloc hchildren howner halloc hi

/-- **A step leaves this grouping.** -/
theorem holds_action {a : Action K} (ha : a.Legal d) (hi : i < d.objects.length)
    (hk : (d.obj i).kind = .grouper) (h : (d.obj i).Holds kind γ) :
    ((a.run d).obj i).Holds kind (a.regroup d i kind γ) := by
  cases a with
  | create call parent role =>
    exact holds_of_priv h (create_congr (fun _ _ => by rfl) (fun _ _ => by rfl) call parent role hi)
  | other d' =>
    refine holds_of_priv h ?_
    change (d'.obj i).priv = _
    have hpriv := congrArg Obj.priv (ha.obj_contents i)
    have hkind : (d'.obj i).kind = (d.obj i).kind := ha.obj_congr (fun _ => by rfl) i
    simpa [Obj.contents, hkind, hk] using hpriv
  | operation op =>
    cases op with
    | set req =>
      have hdsp : dspIsDspKind (d.obj i).kind = false := by
        rw [hk]
        rfl
      exact holds_of_priv h (applySet_congr (fun _ _ => by rfl) (fun _ _ => by rfl) hdsp req)
    | command conn cmd rd =>
      let c : Call K := ⟨{ d with activeConn := some conn }, rd, Writer.init K.txBufferSize, 0⟩
      change ((execCommand conn cmd c).2.dev.obj i).Holds kind
        (if d.OnGroups i conn cmd then (γ.serve d kind rd cmd.index).left else γ)
      cases hf : c.dev.find cmd.target with
      | none =>
        have hnot : ¬d.OnGroups i conn cmd := by
          intro hreach
          have hfind : d.find cmd.target = some i := hreach.1
          cases hfind.symm.trans hf
        rw [execCommand_of_none hf, if_neg hnot]
        exact h
      | some j =>
        rw [execCommand_of_find hf]
        by_cases hij : i = j
        · subst hij
          by_cases hreach : d.OnGroups i conn cmd
          · rw [if_pos hreach]
            obtain ⟨-, hlevel, hidx, hg⟩ := hreach
            rw [hlevel] at hg
            have hserves : ServesAs (objectDispatch i 3 cmd.index) c.dev rd i kind
                (γ.serve d kind rd cmd.index) := objectDispatch_serves hi hk h hidx hg
            obtain ⟨e, r, hcall, -, -, hleft⟩ := hserves 0
            rw [hlevel]
            change ((objectDispatch i 3 cmd.index c).2.dev.obj i).Holds kind _
            rw [hcall]
            exact hleft
          · rw [if_neg hreach]
            exact objectDispatch_keeps (d := c.dev) hi hk h
              (fun hcond => hreach ⟨hf, hcond.1, hcond.2.1, hcond.2.2⟩) c rfl
        · have hnot : ¬d.OnGroups i conn cmd := by
            intro hreach
            have hfind : d.find cmd.target = some i := hreach.1
            exact hij (Option.some.inj (hfind.symm.trans hf))
          rw [if_neg hnot]
          have hout := objectDispatch_outcome (d := c.dev) j cmd.level cmd.index c rfl
          exact holds_of_priv h (hout.frame (find_lt hf) hi (Ne.symm hij)
            (fun _ _ => by rfl) (fun _ _ => by rfl) fun _ _ _ => by rfl)

/-- **What a method answers.** -/
theorem answer_serves (hi : i < d.objects.length) (hk : (d.obj i).kind = .grouper)
    (h : (d.obj i).Holds kind γ) {room conn : ℕ} {cmd : Command} {rd : Reader}
    (hreach : d.OnGroups i conn cmd) :
    (answer room conn cmd rd d).response.status = (γ.serve d kind rd cmd.index).status ∧
      ((answer room conn cmd rd d).response.status = .ok →
        (answer room conn cmd rd d).overflow = false →
          (answer room conn cmd rd d).response.params =
            Field.encodeAll (γ.serve d kind rd cmd.index).fields) := by
  obtain ⟨hf, hlevel, hidx, hg⟩ := hreach
  rw [hlevel] at hg
  have hserves : ServesAs (objectDispatch i 3 cmd.index)
      ({ d with activeConn := some conn } : Device K) rd i kind (γ.serve d kind rd cmd.index) :=
    objectDispatch_serves hi hk h hidx hg
  obtain ⟨e, r, hcall, hstatus, hfields, -⟩ := hserves 0
  have heq := answer_of_dispatch room hf fun wr => (by rw [hlevel]; exact hcall wr)
  rw [heq]
  refine ⟨hstatus, fun hok hfit => ?_⟩
  have hok : e.status = .ok := hok
  rw [← hfields]
  exact Effect.answer_params (fun hne => absurd hok hne) cmd.handle r hfit

/-- The counts in front of the lists are the numbers of entries. -/
structure Groups.Counts (γ : Groups) : Prop where
  groups : (UInt16.ofNat γ.groupList.length).toNat = γ.groupList.length
  citizens : (UInt16.ofNat γ.citizenList.length).toNat = γ.citizenList.length
  members : ∀ s, (UInt16.ofNat (γ.memberList s).length).toNat = (γ.memberList s).length

theorem counts (γ : Groups) : γ.Counts := by
  have hsmall (n : ℕ) (hn : n ≤ 32) : (UInt16.ofNat n).toNat = n :=
    UInt16.toNat_ofNat_of_lt' (Nat.lt_of_le_of_lt hn (by decide))
  have hgroups : γ.groupList.length ≤ 16 := by
    unfold Groups.groupList
    exact (List.length_filterMap_le _ _).trans (by simp)
  have hcitizens : γ.citizenList.length ≤ 32 := by
    unfold Groups.citizenList
    exact (List.length_filterMap_le _ _).trans (by simp)
  exact ⟨hsmall _ (Nat.le_trans hgroups (by decide)), hsmall _ hcitizens, fun s =>
    hsmall _ (Nat.le_trans (List.length_filter_le _ _) hcitizens)⟩

/-! ### Every grouper represents a grouping -/

/-- The citizens are objects of this kind. -/
def Device.Citizens (d : Device K) (kind : Kind) (γ : Groups) : Prop :=
  ∀ c ono, γ.citizens c = some ono →
    ∃ t < d.objects.length, (d.obj t).ono = ono ∧ (d.obj t).kind = kind

theorem reading_left {P : Groups → Prop} (h : P γ) {α : Type} {r : Read α} {rd : Reader}
    {k : α → Served} (hk : ∀ a, P (k a).left) : P (γ.reading r rd k).left := by
  unfold Groups.reading
  split
  · exact h
  · exact hk _

/-- **What a method leaves**: the same grouping, or one with a group, a citizen or an enrolment put
there or taken away. -/
theorem serve_left {P : Groups → Prop} (rd : Reader) (idx : UInt16) (h : P γ)
    (hadd : ∀ s name, idx = 1 → P (γ.setGroup s (some (name, d.nextOno))))
    (hdelete : ∀ s, P (γ.setGroup s none))
    (hcitizen : ∀ c t ono, d.find ono = some t → (d.obj t).kind = kind →
      P (γ.setCitizen c (some ono)))
    (hleave : ∀ c, P (γ.setCitizen c none)) (henrol : ∀ s c on, P (γ.setEnrolled s c on)) :
    P (γ.serve d kind rd idx).left := by
  unfold Groups.serve
  split
  · -- AddGroup
    refine reading_left h fun name => ?_
    split
    · exact h
    · split_ifs
      · exact h
      · exact hadd _ _ rfl
  · -- DeleteGroup
    refine reading_left h fun gi => ?_
    split
    · split_ifs
      · exact hdelete _
      · exact h
    · exact h
  · exact h
  · exact h
  · -- AddCitizen
    refine reading_left h fun p => ?_
    split_ifs
    · exact h
    · split
      · exact h
      next t hfind =>
        split_ifs with hkind
        · exact h
        · split
          · exact h
          · exact hcitizen _ t _ hfind (not_not.1 hkind)
  · -- DeleteCitizen
    refine reading_left h fun ci => ?_
    split
    · split_ifs
      · exact hleave _
      · exact h
    · exact h
  · exact h
  · exact h
  · refine reading_left h fun p => ?_
    split <;> exact h
  · -- SetEnrollment
    refine reading_left h fun p => ?_
    split
    · split_ifs
      · exact h
      · exact henrol _ _ _
    · exact h
  · refine reading_left h fun gi => ?_
    split <;> exact h
  · exact h

theorem setEnrolled_tables (γ : Groups) (s : Fin 16) (c : Fin 32) (on : Bool) :
    (γ.setEnrolled s c on).groups = γ.groups ∧ (γ.setEnrolled s c on).citizens = γ.citizens := by
  unfold Grouping.setEnrolled
  split <;> exact ⟨rfl, rfl⟩

/-- A method adds an object of the right kind, or none. -/
theorem citizens_serve (rd : Reader) (h : d.Citizens kind γ) (idx : UInt16) :
    d.Citizens kind (γ.serve d kind rd idx).left := by
  refine serve_left (P := d.Citizens kind) rd idx h (fun _ _ _ => h) (fun _ => h)
    (fun c t ono hfind hkind c' ono' hc' => ?_) (fun c c' ono' hc' => ?_)
    fun s c on c' ono' hc' => ?_
  · change Function.update γ.citizens c (some ono) c' = some ono' at hc'
    by_cases hcc : c' = c
    · rw [hcc, Function.update_self] at hc'
      obtain rfl := Option.some.inj hc'
      exact ⟨t, find_lt hfind, obj_of_find hfind, hkind⟩
    · rw [Function.update_of_ne hcc] at hc'
      exact h c' ono' hc'
  · change Function.update γ.citizens c none c' = some ono' at hc'
    by_cases hcc : c' = c
    · rw [hcc, Function.update_self] at hc'
      cases hc'
    · rw [Function.update_of_ne hcc] at hc'
      exact h c' ono' hc'
  · rw [(setEnrolled_tables γ s c on).2] at hc'
    exact h c' ono' hc'

/-- The groupers represent groupings, and their citizens are of the right kind. -/
def Device.Grouped (d : Device K) : Prop :=
  ∀ i < d.objects.length, (d.obj i).kind = .grouper →
    ∃ kind γ, (d.obj i).Holds kind γ ∧ d.Citizens kind γ

theorem obj_create {call : Create} {parent : Option ObjRef} {role : Bytes}
    (hi : i < (d.create call parent role).objects.length) (hnew : d.objects.length ≤ i) :
    ∃ o, o.kind = call.kind ∧ (d.create call parent role).obj i = call.setup o := by
  unfold create at hi ⊢
  cases halloc : d.objectAlloc call.kind parent role with
  | mk new e =>
    rw [halloc] at hi
    cases new with
    | none =>
      obtain ⟨-, rfl⟩ := objectAlloc_none halloc
      exact absurd hi (Nat.not_lt.2 hnew)
    | some j =>
      obtain ⟨-, hj, he⟩ := objectAlloc_some halloc
      have hlen : e.objects.length = d.objects.length + 1 := by
        rw [he, length_blockAddMember]
        simp [registered]
      dsimp only at hi ⊢
      rw [length_modifyObj, hlen] at hi
      obtain rfl : i = j := by
        rw [hj]
        exact Nat.le_antisymm (Nat.lt_succ_iff.1 hi) hnew
      refine ⟨e.obj i, ?_, obj_modifyObj_self (by rw [hlen]; exact hi) _⟩
      rw [he, obj_blockAddMember (p := Obj.kind) (fun _ _ => by rfl) (fun _ _ => by rfl), hj]
      simp [registered, obj, Obj.fresh]

/-- A new grouper has no groups. -/
theorem holds_create {call : Create} {o : Obj} (hk : call.kind = .grouper) :
    ∃ kind, (call.setup o).Holds kind .empty := by
  cases call with
  | grouper cls => exact ⟨cls.kind, _, rfl, rfl, .init _ _⟩
  | _ => cases hk

theorem citizens_regroup {a : Action K} (h : d.Citizens kind γ) :
    d.Citizens kind (a.regroup d i kind γ) := by
  cases a with
  | operation op =>
    cases op with
    | command conn cmd rd =>
      change d.Citizens kind (if d.OnGroups i conn cmd then _ else γ)
      split_ifs
      · exact citizens_serve rd h cmd.index
      · exact h
    | set req => exact h
  | create call parent role => exact h
  | other d' => exact h

/-- A grouper that was not there before has no groups. -/
theorem holds_new {a : Action K} (ha : a.Legal d) (hi : i < (a.run d).objects.length)
    (hk : ((a.run d).obj i).kind = .grouper) (hnew : d.objects.length ≤ i) :
    ∃ kind, ((a.run d).obj i).Holds kind .empty := by
  obtain ⟨k, p, f, o, hB, ho, hkind⟩ := (action_changes ha).new hi hnew
  cases a with
  | create call parent role =>
    obtain ⟨o', ho', hobj⟩ := obj_create hi hnew
    obtain ⟨hk', -, rfl⟩ := hB
    have hcall : call.kind = .grouper := by
      rw [← hk', ← ho, ← call.setup_kind o, ← hkind]
      exact hk
    obtain ⟨kind, h⟩ := holds_create (o := o') hcall
    exact ⟨kind, hobj ▸ h⟩
  | operation op =>
    obtain ⟨hmem, -, rfl⟩ := hB
    have hproxy : o.kind = .grouper :=
      (congrArg Prod.snd (initProxy_ident o)).symm.trans (hkind.symm.trans hk)
    rw [← ho, hproxy] at hmem
    simp at hmem
  | other d' => exact hB.elim

theorem grouped_action {a : Action K} (ha : a.Legal d) (hd : d.Grouped) : (a.run d).Grouped := by
  intro i hi hk
  by_cases hold : i < d.objects.length
  · obtain ⟨-, -, hkind⟩ := (action_changes ha).old hold
    have hk : (d.obj i).kind = .grouper := hkind.symm.trans hk
    obtain ⟨kind, γ, h, hc⟩ := hd i hold hk
    refine ⟨kind, a.regroup d i kind γ, holds_action ha hold hk h, fun c ono hc' => ?_⟩
    obtain ⟨t, ht, hono, htk⟩ := citizens_regroup hc c ono hc'
    obtain ⟨hlt, hono', hkind'⟩ := (action_changes ha).old ht
    exact ⟨t, hlt, hono'.trans hono, hkind'.trans htk⟩
  · obtain ⟨kind, h⟩ := holds_new ha hi hk (Nat.not_lt.1 hold)
    exact ⟨kind, .empty, h, fun c ono hc => by cases hc⟩

/-- No grouper is there at the start. -/
theorem not_grouper_of_init (h : (control K).init d) (hi : i < d.objects.length) :
    (d.obj i).kind ≠ .grouper := by
  have hall : d.All fun s => s.kind ≠ .grouper := all_start h fun k hk => by
    simp only [List.mem_cons, List.not_mem_nil, or_false] at hk
    rcases hk with rfl | rfl | rfl <;> simp [Scalar.blank]
  exact hall i hi

theorem grouped_of_reach (h : (control K).Reach d) : d.Grouped :=
  h.invariant (fun _ hinit _ hi hk => absurd hk (not_grouper_of_init hinit hi))
    fun _ _ _ hd hok => grouped_action hok hd

/-- The grouping after a list of steps. -/
def regroups (d : Device K) (i : ObjRef) (kind : Kind) (γ : Groups) : List (Action K) → Groups
  | [] => γ
  | a :: as => regroups (a.run d) i kind (a.regroup d i kind γ) as

theorem holds_run {d' : Device K} {as : List (Action K)} (hrun : (control K).Run d as d')
    (hi : i < d.objects.length) (hk : (d.obj i).kind = .grouper) (h : (d.obj i).Holds kind γ) :
    (i < d'.objects.length ∧ (d'.obj i).kind = .grouper) ∧
      (d'.obj i).Holds kind (regroups d i kind γ as) := by
  induction hrun generalizing γ with
  | nil => exact ⟨⟨hi, hk⟩, h⟩
  | cons hok _ ih =>
    obtain ⟨hi', -, hk'⟩ := (action_changes hok).old hi
    exact ih hi' (hk'.trans hk) (holds_action hok hi hk h)

/-- The grouper represents the grouping, and answers from it. -/
structure Device.Refines (d : Device K) (i : ObjRef) (kind : Kind) (γ : Groups) : Prop where
  holds : (d.obj i).Holds kind γ
  /-- Of the methods on groups, status and result are those of the grouping. -/
  answers : ∀ room conn cmd rd, d.OnGroups i conn cmd →
    (answer room conn cmd rd d).response.status = (γ.serve d kind rd cmd.index).status ∧
      ((answer room conn cmd rd d).response.status = .ok →
        (answer room conn cmd rd d).overflow = false →
          (answer room conn cmd rd d).response.params =
            Field.encodeAll (γ.serve d kind rd cmd.index).fields)
  counts : γ.Counts
  /-- Nobody is enrolled in a group that is put in a place, and no citizen put there is enrolled. -/
  fresh : ∀ s c, (∀ a, (γ.setGroup s a).enrolled s c = false) ∧
    ∀ b, (γ.setCitizen c b).enrolled s c = false

theorem refines_of_holds (hi : i < d.objects.length) (hk : (d.obj i).kind = .grouper)
    (h : (d.obj i).Holds kind γ) : d.Refines i kind γ where
  holds := h
  answers _ _ _ _ hreach := answer_serves hi hk h hreach
  counts := counts γ
  fresh s c := ⟨fun a => γ.enrolled_setGroup_self s a c, fun b => γ.enrolled_setCitizen_self c b s⟩

/-- **A grouper refines a grouping**, whatever happens: the methods on groups change it as they say,
and nothing else changes it. -/
theorem grouper_refines (h : (control K).Reach d) (hi : i < d.objects.length)
    (hk : (d.obj i).kind = .grouper) : ∃ kind γ, d.Refines i kind γ ∧
      ∀ as d', (control K).Run d as d' → d'.Refines i kind (regroups d i kind γ as) := by
  obtain ⟨kind, γ, hholds, -⟩ := grouped_of_reach h i hi hk
  refine ⟨kind, γ, refines_of_holds hi hk hholds, fun as d' hrun => ?_⟩
  obtain ⟨⟨hi', hk'⟩, hholds'⟩ := holds_run hrun hi hk hholds
  exact refines_of_holds hi' hk' hholds'

namespace Sample

/-- The grouper of the sample device has one group, with one citizen. -/
theorem grouper_refines_grouped : ∃ γ : Groups, grouped.Refines 3 .mute γ ∧
    γ.groupList = [(0, [0x61, 0x6C, 0x6C], 4098)] ∧ γ.memberList 0 = [(0, 4097)] := by
  obtain ⟨kind, γ, h, -⟩ := grouper_refines reach_grouped (i := 3) (by decide) (by decide)
  obtain ⟨g, hp, hkind, hrep⟩ := h.holds
  have hmute : (grouped.obj 3).priv.tables.map (·.citizenKind) = some .mute := by decide
  have hgroups : (grouped.obj 3).priv.tables.map (fun g => g.usedGroups.map fun s =>
      (s, (g.groups s).name, (g.groups s).proxyOno)) =
        some [(0, [0x61, 0x6C, 0x6C], 4098)] := by decide
  have hmembers : (grouped.obj 3).priv.tables.map (fun g => (g.members 0).map fun c =>
      (c, (g.citizens c).ono)) = some [(0, 4097)] := by decide
  rw [hp] at hmute hgroups hmembers
  obtain rfl : kind = .mute := hkind.symm.trans (Option.some.inj hmute)
  exact ⟨γ, h, hrep.groupList.trans (Option.some.inj hgroups),
    (hrep.memberList 0).trans (Option.some.inj hmembers)⟩

end Sample

end Runs

end Aes70
