import Aes70.Class.Handler

/-!
# Managers and blocks

The method handlers of `aes70_managers.c` (OcaDeviceManager, OcaBlock) and the command half of
`aes70_subscription.c` (OcaSubscriptionManager).

* `blockDispatch` : enumeration of the tree, and the snapshot and recall of parameter data.
* `applyParameterData` : the recall; its sub-reader takes its length from the parameters.
* `addSubscription`, `removeSubscription` : the subscription table as a set of keys.
-/

namespace Aes70

open Handler

variable {K : Kconfig}

/-! ### OcaDeviceManager -/

/-- The entry of a manager in `GetManagers`. -/
def managerDescriptor (o : Obj) : List Field :=
  let desc := classForKind o.kind
  [.u32 o.ono, .string desc.className] ++ Field.classId desc.classId ++ [.u16 desc.classVersion]

/-- `aes70_devmgr_dispatch`: OcaDeviceManager, level 3. -/
def devmgrDispatch (i : ObjRef) (idx : UInt16) : Handler K := look fun d =>
  match idx with
  | 1 => reply 1 [.u16 3] -- GetOcaVersion
  | 2 => reply 1 [.bytes d.modelGuid] -- GetModelGUID
  | 3 => reply 1 [.string d.serial] -- GetSerialNumber
  | 4 => reply 1 [.string d.deviceName] -- GetDeviceName
  | 5 => -- SetDeviceName
    reading (Read.string 64) fun buf =>
      store fun d => { d with deviceName := strlcpy 64 buf }.notify i 3 4
  | 6 => reply 1 [.string d.manufacturer, .string d.model, .string d.version]
  | 7 => reply 1 [.string d.deviceRole] -- GetDeviceRole
  | 8 => -- SetDeviceRole
    reading (Read.string 48) fun buf =>
      store fun d => { d with deviceRole := strlcpy 48 buf }.notify i 3 6
  | 11 => reply 1 [.u8 1] -- GetEnabled
  | 13 => reply 1 [.u16 0] -- GetState
  | 15 => reply 1 [.u8 0] -- GetResetCause
  | 19 => -- GetManagers
    replyManagers (d.deviceManager.toList ++ d.subscriptionManager.toList) d
  | _ => ret .notImplemented
where
  /-- The list of manager descriptors. -/
  replyManagers (ms : List ObjRef) (d : Device K) : Handler K :=
    reply 1 (.u16 (UInt16.ofNat ms.length) :: ms.flatMap fun m => managerDescriptor (d.obj m))

/-! ### OcaBlock: enumeration -/

/-- `emit_object_identification`. -/
def emitObjectIdentification (o : Obj) : List Field :=
  let desc := classForKind o.kind
  .u32 o.ono :: Field.classId desc.classId ++ [.u16 desc.classVersion]

/-- The members of a block and of the blocks in it, each after the block it is in, as the
recursions `count_descendants`, `emit_descendants`, `count_params` and `emit_params` visit them.
The recursion is cut at depth `depth`, which is beyond that of any tree the registry can hold. -/
def descend (d : Device K) : (depth : ℕ) → ObjRef → List (ObjRef × ObjRef)
  | 0, _ => []
  | depth + 1, b =>
    (d.obj b).children.flatMap fun c =>
      (b, c) :: if (d.obj c).kind = .block then descend d depth c else []

/-- The transitive members of a block, each with its container. -/
def descendants (d : Device K) (b : ObjRef) : List (ObjRef × ObjRef) :=
  descend d (d.objects.length + 1) b

/-- `is_param_kind`. -/
def isParamKind : Kind → Bool
  | .gain | .mute | .polarity | .switch | .delay | .frequency | .boolean | .int32 | .uint16
  | .uint32 | .float32 => true
  | _ => false

/-- The transitive members `count_params` and `emit_params` take. -/
def paramObjects (d : Device K) (b : ObjRef) : List ObjRef :=
  ((descendants d b).map Prod.snd).filter fun c => isParamKind (d.obj c).kind

/-- `FetchCurrentParameterData`: the length of the blob, the count, the entries. -/
def fetchParameterData (i : ObjRef) (d : Device K) : Handler K :=
  let os := paramObjects d i
  let n := UInt16.ofNat os.length
  reply 1 (.u32 (2 + n.toUInt32 * 12) :: .u16 n ::
    os.flatMap fun c => [.u32 (d.obj c).ono, .f64 (d.obj c).num])

/-! ### OcaBlock: recall -/

/-- The value an entry stores: clamped for an object that carries a range. -/
def clampToRange (o : Obj) (v : F64) : F64 :=
  if o.numMin.lt o.numMax then
    let v := if v.lt o.numMin then o.numMin else v
    if o.numMax.lt v then o.numMax else v
  else v

/-- The object an entry of the blob writes, with its primary property. -/
def recallTarget (d : Device K) (ono : UInt32) : Option (ObjRef × UInt16 × UInt16) :=
  match d.find ono with
  | some t =>
    if isParamKind (d.obj t).kind then (primaryProperty (d.obj t).kind).map fun p => (t, p) else none
  | none => none

/-- One entry of `ApplyParameterData`. -/
def applyEntry (d : Device K) (ono : UInt32) (v : F64) : Device K :=
  match recallTarget d ono with
  | some (t, level, index) => d.commitNum t (clampToRange (d.obj t) v) level index true
  | none => d

/-- The loop of `ApplyParameterData` over the `n` entries still to read. -/
def applyEntries : ℕ → Device K → Reader → Status × Device K × Reader
  | 0, d, b => (.ok, d, b)
  | n + 1, d, b =>
    let (ono, b) := Read.u32 b
    let (v, b) := Read.f64 b
    if b.err then (.badFormat, d, b) else applyEntries n (applyEntry d ono v) b

/-- `ApplyParameterData`. The check of the blob length is made in 32-bit arithmetic; the reads of
the sub-reader count as reads of the parameters. -/
def applyParameterData : Handler K := fun c =>
  let (blen, rd) := Read.u32 c.rd
  if rd.err || decide (rd.len < szAdd rd.off blen.toNat) then (.badFormat, { c with rd }) else
    let (n, b) := Read.u16 (Reader.init (rd.p.add rd.off) blen.toNat)
    let (st, dev, b) := applyEntries n.toNat c.dev b
    let rd := { rd with off := szAdd rd.off blen.toNat, seen := max rd.seen (rd.off + b.seen) }
    (st, { c with dev, rd })

/-! ### What a recall does -/

/-- Recall a list of entries. -/
def Device.recall (d : Device K) (es : List (UInt32 × F64)) : Device K :=
  es.foldl (fun d e => applyEntry d e.1 e.2) d

/-- The entries a recall reads before it ends or hits an underrun, and whether it hit one. -/
def recallEntries : ℕ → Read (List (UInt32 × F64) × Bool)
  | 0, b => (([], false), b)
  | n + 1, b =>
    let (ono, b) := Read.u32 b
    let (v, b) := Read.f64 b
    if b.err then (([], true), b) else
      let ((es, truncated), b) := recallEntries n b
      (((ono, v) :: es, truncated), b)

theorem applyEntries_eq (n : ℕ) (d : Device K) (b : Reader) :
    applyEntries n d b =
      (if (recallEntries n b).1.2 then .badFormat else .ok, d.recall (recallEntries n b).1.1,
        (recallEntries n b).2) := by
  induction n generalizing d b with
  | zero => rfl
  | succ n ih =>
    unfold applyEntries recallEntries
    by_cases h : (Read.f64 (Read.u32 b).2).2.err
    · simp [h, Device.recall]
    · simp [h, ih, Device.recall]

/-- The entries the parameters of `ApplyParameterData` make it apply, and whether they end in the
middle of the list; `none` when the length of the blob is refused. -/
def recallParams (rd : Reader) : Option (List (UInt32 × F64) × Bool) :=
  let (blen, rd) := Read.u32 rd
  if rd.err || decide (rd.len < szAdd rd.off blen.toNat) then none else
    let (n, b) := Read.u16 (Reader.init (rd.p.add rd.off) blen.toNat)
    some (recallEntries n.toNat b).1

/-- The reader `ApplyParameterData` leaves. -/
def recallRest (rd : Reader) : Reader :=
  let (blen, rd) := Read.u32 rd
  if rd.err || decide (rd.len < szAdd rd.off blen.toNat) then rd else
    let (n, b) := Read.u16 (Reader.init (rd.p.add rd.off) blen.toNat)
    { rd with
      off := szAdd rd.off blen.toNat
      seen := max rd.seen (rd.off + (recallEntries n.toNat b).2.seen) }

/-- Status and device after the entries `recallParams` found. -/
def Device.recallOutcome (d : Device K) : Option (List (UInt32 × F64) × Bool) → Status × Device K
  | none => (.badFormat, d)
  | some (es, truncated) => (if truncated then .badFormat else .ok, d.recall es)

/-- `ApplyParameterData` applies the entries up to the first that is incomplete. -/
theorem applyParameterData_eq (c : Call K) :
    applyParameterData c = ((c.dev.recallOutcome (recallParams c.rd)).1,
      { c with dev := (c.dev.recallOutcome (recallParams c.rd)).2, rd := recallRest c.rd }) := by
  unfold applyParameterData recallParams recallRest
  dsimp only
  split_ifs
  · rfl
  · rw [applyEntries_eq]
    rfl

theorem applyParameterData_dev (c : Call K) :
    ((applyParameterData c).1, (applyParameterData c).2.dev) =
      c.dev.recallOutcome (recallParams c.rd) := by
  rw [applyParameterData_eq]

/-- `aes70_block_dispatch`: OcaBlock, level 3. -/
def blockDispatch (i : ObjRef) (idx : UInt16) : Handler K := look fun d =>
  match idx with
  | 1 => reply 1 [.u32 0] -- GetType
  | 5 => -- GetActionObjects
    let cs := (d.obj i).children
    reply 1 (.u16 (UInt16.ofNat cs.length) ::
      cs.flatMap fun c => emitObjectIdentification (d.obj c))
  | 6 => -- GetActionObjectsRecursive
    let ms := descendants d i
    reply 1 (.u16 (UInt16.ofNat ms.length) ::
      ms.flatMap fun m => emitObjectIdentification (d.obj m.2) ++ [.u32 (d.obj m.1).ono])
  | 25 => fetchParameterData i d
  | 26 => applyParameterData
  | _ => ret .notImplemented

/-! ### OcaSubscriptionManager -/

/-- `same_sub`. -/
def Subscription.same (s : Subscription) (conn : Option ℕ) (emitter : UInt32)
    (level index : UInt16) : Bool :=
  s.inUse && some s.connIdx == conn && s.emitterOno == emitter && s.eventLevel == level &&
    s.eventIndex == index

namespace Device

/-- `find_slot`: the first slot not in use. -/
def findSlot (d : Device K) : Option (Fin K.maxSubscriptions) :=
  (List.finRange K.maxSubscriptions).find? fun k => !(d.subs k).inUse

/-- Some slot holds the key. -/
def subscribed (d : Device K) (conn : Option ℕ) (emitter : UInt32) (level index : UInt16) : Bool :=
  (List.finRange K.maxSubscriptions).any fun k => (d.subs k).same conn emitter level index

/-- Free every slot that satisfies `p`. -/
def dropSubs (d : Device K) (p : Subscription → Bool) : Device K :=
  { d with subs := fun k => if p (d.subs k) then { d.subs k with inUse := false } else d.subs k }

/-- `aes70_subscriptions_drop_conn`. -/
def subscriptionsDropConn (d : Device K) (c : ℕ) : Device K :=
  d.dropSubs fun s => s.inUse && s.connIdx == c

end Device

/-- The parameters of the subscription methods that name the event. -/
def readEvent : Read (UInt32 × UInt16 × UInt16) := do
  return (← Read.u32, ← Read.u16, ← Read.u16)

/-- The parameters of `add_subscription`, as the entry to store; the connection is filled in
later. An EV1 request carries the subscriber's method and context. -/
def readSubscription (ev2 : Bool) : Read Subscription := do
  let (emitter, level, index) ← readEvent
  let method ← if ev2 then pure (0, 0, 0) else readEvent
  let blob ← if ev2 then pure none else Read.blob
  let delivery ← Read.u8
  return ⟨true, 0, emitter, level, index, method.1, method.2.1, method.2.2,
    (blob.getD []).take 8, delivery⟩

/-- `add_subscription`. -/
def addSubscription (ev2 : Bool) : Handler K :=
  reading (readSubscription ev2) fun s => look fun d =>
    match d.activeConn with
    | none => ret .invalidRequest
    | some conn =>
      if d.subscribed (some conn) s.emitterOno s.eventLevel s.eventIndex then ret .ok else
        match d.findSlot with
        | none => ret .outOfMemory
        | some k =>
          store fun d => { d with subs := Function.update d.subs k { s with connIdx := conn } }

/-- `remove_subscription`; `conn_idx` is never -1 in an entry. -/
def removeSubscription : Handler K :=
  reading readEvent fun (emitter, level, index) =>
    store fun d => d.dropSubs fun s => s.same d.activeConn emitter level index

/-- `aes70_submgr_dispatch`: OcaSubscriptionManager, level 3. -/
def submgrDispatch (_i : ObjRef) (idx : UInt16) : Handler K :=
  match idx with
  | 1 => addSubscription false
  | 2 => removeSubscription
  | 3 => store fun d => { d with notificationsDisabled := true }
  | 4 => store fun d => { d with notificationsDisabled := false }
  | 8 => addSubscription true
  | 9 => removeSubscription
  | _ => ret .notImplemented

end Aes70
