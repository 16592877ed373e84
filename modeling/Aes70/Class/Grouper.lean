import Aes70.Class.Handler

/-!
# OcaGrouper

The method handler of `aes70_grouper.c`. Groups and citizens are numbered from 1 on the wire;
AddGroup creates a proxy object of the citizen class in the root block.
-/

namespace Aes70

open Handler

variable {K : Kconfig}

/-- `init_proxy`. -/
def initProxy (o : Obj) : Obj :=
  match o.kind with
  | .gain => { o with numMin := .ofInt (-200), numMax := .ofNat 200, num := .zero }
  | .mute => { o with num := .ofNat 2 }
  | .boolean => { o with num := .zero }
  | _ => o

namespace GrouperPriv

/-- `aes70_grouper_init`. -/
def init (citizenKind : Kind) (h : citizenKind ∈ [.gain, .mute, .boolean]) : GrouperPriv where
  citizenKind := citizenKind
  citizenKind_mem := h
  actuator := true
  mode := 2
  groups := fun _ => ⟨false, [], 0⟩
  citizens := fun _ => ⟨false, 0, false⟩
  enroll := fun _ _ => 0

/-- The loop over the group slots: the first that is free. -/
def freeGroup (g : GrouperPriv) : Option (Fin 16) :=
  (List.finRange 16).find? fun s => !(g.groups s).used

/-- The loop over the citizen slots: the first that is free. -/
def freeCitizen (g : GrouperPriv) : Option (Fin 32) :=
  (List.finRange 32).find? fun s => !(g.citizens s).used

/-- The slots of the groups in use. -/
def usedGroups (g : GrouperPriv) : List (Fin 16) :=
  (List.finRange 16).filter fun s => (g.groups s).used

/-- The slots of the citizens in use. -/
def usedCitizens (g : GrouperPriv) : List (Fin 32) :=
  (List.finRange 32).filter fun s => (g.citizens s).used

/-- The slots of the citizens enrolled in a group. -/
def members (g : GrouperPriv) (gi : Fin 16) : List (Fin 32) :=
  (List.finRange 32).filter fun s => (g.citizens s).used && g.enrolled gi s

/-- The stores of `AddGroup` once the proxy exists. -/
def addGroup (g : GrouperPriv) (slot : Fin 16) (name : Bytes) (proxyOno : UInt32) : GrouperPriv :=
  { g with
    groups := Function.update g.groups slot ⟨true, strlcpy 40 name, proxyOno⟩
    enroll := Function.update g.enroll slot fun _ => 0 }

/-- The stores of `DeleteGroup`. -/
def deleteGroup (g : GrouperPriv) (slot : Fin 16) : GrouperPriv :=
  { g with
    groups := Function.update g.groups slot ⟨false, [], 0⟩
    enroll := Function.update g.enroll slot fun _ => 0 }

/-- The stores of `AddCitizen`. -/
def addCitizen (g : GrouperPriv) (slot : Fin 32) (ono : UInt32) : GrouperPriv :=
  { g with citizens := Function.update g.citizens slot ⟨true, ono, true⟩ }

/-- The stores of `DeleteCitizen`: free the slot, clear its enrolment bit in every group. -/
def deleteCitizen (g : GrouperPriv) (slot : Fin 32) : GrouperPriv :=
  let g := { g with
    citizens := Function.update g.citizens slot { g.citizens slot with used := false } }
  (List.finRange 16).foldl (fun g s => g.setEnroll s slot false) g

end GrouperPriv

/-- The index 1 … n of a request as a slot number. -/
def slot? (n : ℕ) (idx : UInt16) : Option (Fin n) :=
  if h : 1 ≤ idx.toNat ∧ idx.toNat ≤ n then some ⟨idx.toNat - 1, by omega⟩ else none

/-- The index of a slot as it is sent. -/
def slotIndex {n : ℕ} (s : Fin n) : UInt16 := UInt16.ofNat (s + 1)

/-- `wr_group`. -/
def wrGroup (g : GrouperPriv) (s : Fin 16) : List Field :=
  [.u16 (slotIndex s), .string (g.groups s).name, .u32 (g.groups s).proxyOno]

/-- `wr_citizen`. -/
def wrCitizen (g : GrouperPriv) (s : Fin 32) : List Field :=
  [.u16 (slotIndex s), .u16 0, .u32 (g.citizens s).ono, .u8 (flag (g.citizens s).online)]

/-- A list result: the count, then the entries. -/
def replyList {α : Type} (xs : List α) (wr : α → List Field) : Handler K :=
  reply 1 (.u16 (UInt16.ofNat xs.length) :: xs.flatMap wr)

/-- A store to the private state of the grouper. -/
def storeGrouper (i : ObjRef) (g : GrouperPriv) (d : Device K) : Device K :=
  d.modifyObj i fun o => { o with priv := .grouper g }

/-- `AddGroup`. -/
def addGroup (i : ObjRef) (g : GrouperPriv) : Handler K :=
  reading (Read.string 40) fun name =>
    match g.freeGroup with
    | none => ret .outOfMemory
    | some slot => look fun d =>
      match d.objectAlloc g.citizenKind d.rootBlock name with
      | (none, d) => fun c => (.processingFailed, { c with dev := d })
      | (some proxy, d) =>
        let d := d.modifyObj proxy initProxy
        let ono := (d.obj proxy).ono
        storeReply (fun _ => storeGrouper i (g.addGroup slot name ono) d) 2
          [.u16 (slotIndex slot), .u32 ono]

/-- `AddCitizen`; a citizen on another device is refused. -/
def addCitizen (i : ObjRef) (g : GrouperPriv) : Handler K :=
  reading (do
    let _ ← Read.u16
    let host ← Read.blob
    let ono ← Read.u32
    let _ ← Read.u8
    return ((host.getD []).length, ono)) fun (hostLen, ono) => look fun d =>
      if hostLen ≠ 0 then ret .notImplemented else
        match d.find ono with
        | none => ret .badOno
        | some c =>
          if (d.obj c).kind ≠ g.citizenKind then ret .parameterError else
            match g.freeCitizen with
            | none => ret .outOfMemory
            | some slot =>
              storeReply (storeGrouper i (g.addCitizen slot ono)) 1 [.u16 (slotIndex slot)]

/-- The two indices of an OcaGrouperEnrollment. -/
def readEnrollment : Read (UInt16 × UInt16) := do return (← Read.u16, ← Read.u16)

/-- `SetEnrollment`. -/
def setEnrollment (i : ObjRef) (g : GrouperPriv) : Handler K :=
  reading (do return (← readEnrollment, ← Read.u8)) fun ((gi, ci), on) =>
    match slot? 16 gi, slot? 32 ci with
    | some gi, some ci =>
      if !(g.groups gi).used || !(g.citizens ci).used then ret .parameterError
      else store (storeGrouper i (g.setEnroll gi ci (on != 0)))
    | _, _ => ret .parameterOutOfRange

/-- `aes70_grouper_dispatch`: OcaGrouper, level 3. -/
def grouperDispatch (i : ObjRef) (idx : UInt16) : Handler K := look fun d =>
  match (d.obj i).priv with
  | .grouper g =>
    match idx with
    | 1 => addGroup i g
    | 2 => -- DeleteGroup
      reading Read.u16 fun gi =>
        match slot? 16 gi with
        | some s =>
          if (g.groups s).used then store (storeGrouper i (g.deleteGroup s))
          else ret .parameterOutOfRange
        | none => ret .parameterOutOfRange
    | 3 => reply 1 [.u16 (UInt16.ofNat g.usedGroups.length)] -- GetGroupCount
    | 4 => replyList g.usedGroups (wrGroup g) -- GetGroupList
    | 5 => addCitizen i g
    | 6 => -- DeleteCitizen
      reading Read.u16 fun ci =>
        match slot? 32 ci with
        | some s =>
          if (g.citizens s).used then store (storeGrouper i (g.deleteCitizen s))
          else ret .parameterOutOfRange
        | none => ret .parameterOutOfRange
    | 7 => reply 1 [.u16 (UInt16.ofNat g.usedCitizens.length)] -- GetCitizenCount
    | 8 => replyList g.usedCitizens (wrCitizen g) -- GetCitizenList
    | 9 => -- GetEnrollment
      reading readEnrollment fun (gi, ci) =>
        match slot? 16 gi, slot? 32 ci with
        | some gi, some ci => reply 1 [.u8 (flag (g.enrolled gi ci))]
        | _, _ => ret .parameterOutOfRange
    | 10 => setEnrollment i g
    | 11 => -- GetGroupMemberList
      reading Read.u16 fun gi =>
        match slot? 16 gi with
        | some s => replyList (g.members s) (wrCitizen g)
        | none => ret .parameterOutOfRange
    | 12 => reply 1 [.u8 (flag g.actuator)] -- GetActuatorOrSensor
    | 13 => -- SetActuatorOrSensor
      reading Read.u8 fun v => store (storeGrouper i { g with actuator := v != 0 })
    | 14 => reply 1 [.u8 g.mode] -- GetMode
    | 15 => -- SetMode
      reading Read.u8 fun m =>
        if m != 1 && m != 2 then ret .parameterOutOfRange
        else store (storeGrouper i { g with mode := m })
    | _ => ret .badMethod
  | _ => ret .deviceError

end Aes70
