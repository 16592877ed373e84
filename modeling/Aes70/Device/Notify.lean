import Aes70.Device.Property

/-!
# Sending, notifying, committing

How a value change leaves the device: `aes70_conn_send`, `send_notification`,
`aes70_notify_property_changed`, the value commits of `aes70_object.c` and the fan-out of group
proxies (`aes70_grouper_on_commit`).

* `sendAll` : the loop that pushes one frame through a socket.
* `Device.notify` : one notification for each subscription to the object's PropertyChanged event.
* `Device.commitNum`, `Device.commitStr` : store, notify, call back, fan out.
-/

namespace Aes70

/-! ### Frame constants -/

/-- `OCP1_SYNC_VAL`. -/
def ocp1SyncVal : UInt8 := 0x3B

/-- `OCP1_PROTO_VERSION`. -/
def ocp1ProtoVersion : UInt16 := 0x0004

/-- `OCP1_HEADER_LEN`. -/
def ocp1HeaderLen : ℕ := 10

/-- `OCP1_PDUSIZE_PREFIX`. -/
def ocp1PdusizePrefix : ℕ := 1

/-- `ocp1_msg_type_t`. -/
inductive MsgType
  | cmd | cmdRrq | ntf | rsp | keepalive
deriving DecidableEq

/-- The byte of a message type. -/
def MsgType.code : MsgType → UInt8
  | .cmd => 0
  | .cmdRrq => 1
  | .ntf => 2
  | .rsp => 3
  | .keepalive => 4

/-! ### Socket send -/

/-- The loop of `aes70_conn_send` once `sent` of `len` bytes are out: how many bytes the socket
accepted in the end, and whether the frame was completed. -/
def sendAll (len : ℕ) : List SendResult → (sent : ℕ) → ℕ × Bool
  | rs, sent =>
    if len ≤ sent then (sent, true) else
      match rs with
      | .wrote n :: rs => if n = 0 then (sent, false) else sendAll len rs (sent + min n (len - sent))
      | .again :: rs => sendAll len rs sent
      | .failed :: _ => (sent, false)
      | [] => (sent, false)

namespace Device

variable {K : Kconfig}

/-- `aes70_conn_send`. -/
def connSend (d : Device K) (c : ℕ) (frame : Bytes) : Device K :=
  if h : c < K.maxConnections then
    if (d.conns ⟨c, h⟩).inUse then
      let (n, complete) := sendAll frame.length (d.net.sends d.log c) 0
      let d := d.emit (.tx c frame n)
      if complete then d.modifyConn ⟨c, h⟩ fun e => { e with lastTxUs := d.net.clock d.log } else d
    else d
  else d

/-! ### Notifications -/

/-- The frame `send_notification` builds in `dev->txbuf`; `none` when it overflows. -/
def notificationFrame (d : Device K) (s : Subscription) (i : ObjRef) (level index : UInt16) :
    Option Bytes :=
  let w := (Writer.init K.txBufferSize).fields [.u8 ocp1SyncVal, .u16 ocp1ProtoVersion]
  let pdusizeAt := w.off
  let w := w.fields [.u32 0, .u8 MsgType.ntf.code, .u16 1]
  let msgsizeAt := w.off
  let w := w.fields
    [.u32 0, .u32 s.subOno, .u16 s.subMethodLevel, .u16 s.subMethodIndex, .u8 2,
      .blob s.context, .u32 (d.obj i).ono, .u16 1, .u16 1, .u16 level, .u16 index]
  let w := w.fields ((d.encodeProperty i level index).getD [])
  let w := w.field (.u8 1)
  if w.err then none else
    let w := w.patch msgsizeAt (wr32 (UInt32.ofNat (w.off - msgsizeAt)))
    let w := w.patch pdusizeAt (wr32 (UInt32.ofNat (w.off - ocp1PdusizePrefix)))
    some w.buf

/-- Send the notification for one slot of the table; `sent` collects the frames handed over. -/
def notifySlot (i : ObjRef) (level index : UInt16) :
    Device K × List (ℕ × Bytes) → Fin K.maxSubscriptions → Device K × List (ℕ × Bytes)
  | (d, sent), k =>
    let s := d.subs k
    if s.watches (d.obj i).ono then
      match d.notificationFrame s i level index with
      | some frame => (d.connSend s.connIdx frame, sent ++ [(s.connIdx, frame)])
      | none => (d, sent)
    else (d, sent)

/-- `aes70_notify_property_changed`. -/
def notify (d : Device K) (i : ObjRef) (level index : UInt16) : Device K :=
  if d.notificationsDisabled then d else
    let (d', sent) := (List.finRange K.maxSubscriptions).foldl (notifySlot i level index) (d, [])
    d'.emit (.propertyChanged i (d.obj i) level index sent)

/-- The call of `on_control_changed`, where it is set. -/
def controlChanged (d : Device K) (i : ObjRef) : Device K :=
  if d.cfg.onControlChanged then d.emit (.controlChanged i (d.obj i)) else d

/-! ### Group fan-out -/

/-- The citizens of group `gi` of the grouper state `g` that a write of `w` is copied to. -/
def groupTargets (d : Device K) (w : ObjRef) (g : GrouperPriv) (gi : Fin 16) : List ObjRef :=
  (List.finRange 32).filterMap fun ci =>
    if (g.citizens ci).used && (g.citizens ci).online && g.enrolled gi ci then
      (d.find (g.citizens ci).ono).filter fun t => (d.obj t).kind = (d.obj w).kind ∧ t ≠ w
    else none

/-- The loops of `aes70_grouper_on_commit` over objects, groups and citizens: the objects `w` is
copied to, in order. The copies store only `num`, which no condition of the loops reads. -/
def fanTargets (d : Device K) (w : ObjRef) : List ObjRef :=
  (List.range d.objects.length).flatMap fun k =>
    match (d.obj k).kind, (d.obj k).priv with
    | .grouper, .grouper g =>
      (List.finRange 16).flatMap fun gi =>
        if (g.groups gi).used ∧ (g.groups gi).proxyOno = (d.obj w).ono then d.groupTargets w g gi
        else []
    | _, _ => []

/-- The body of the innermost loop: copy the value of `w` to the citizen `c`. -/
def copyToCitizen (w : ObjRef) (level index : UInt16) (d : Device K) (c : ObjRef) : Device K :=
  ((d.modifyObj c fun o => { o with num := (d.obj w).num }).notify c level index).controlChanged c

/-- `aes70_grouper_on_commit`. -/
def grouperOnCommit (d : Device K) (w : ObjRef) : Device K :=
  match primaryProperty (d.obj w).kind with
  | some (level, index) => (d.fanTargets w).foldl (copyToCitizen w level index) d
  | none => d

/-! ### Commits -/

/-- `aes70_object_commit_num`. -/
def commitNum (d : Device K) (i : ObjRef) (v : F64) (level index : UInt16)
    (fromController : Bool) : Device K :=
  let d := (d.modifyObj i fun o => { o with num := v }).notify i level index
  if fromController then (d.controlChanged i).grouperOnCommit i else d

/-- `aes70_object_commit_str`. -/
def commitStr (d : Device K) (i : ObjRef) (s : Bytes) (level index : UInt16)
    (fromController : Bool) : Device K :=
  let d := (d.modifyObj i fun o => { o with str := some s }).notify i level index
  if fromController then d.controlChanged i else d

end Device

end Aes70
