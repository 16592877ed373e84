import Aes70.Ocp1.RoundTrip
import Aes70.Server.Outgoing
import Aes70.Server.Subscriptions

/-!
# What a subscriber gets back

A controller that subscribes says which of its methods is to be called and hands over a context,
which every notification brings back with the event. Between the two lies an entry of the table.

* `Notification.decode` : a notification as its subscriber reads it.
* `Turn.table` : what a turn does to the table, and from which table its notifications are built.
* `Device.Adds` : an EV1 request, with its parameters.
* `subscriber_carried_iff` : all of it comes back, unless the context is longer than the entry
  keeps.
-/

namespace Aes70

open Handler

variable {K : Kconfig} {d d' : Device K} {i : ObjRef} {level index : UInt16}

/-! ### The table and its notifications -/

/-- If the event is a notification, it is one that a device with this table and these texts raised
when the object was as recorded. -/
def Event.From (subs : Fin K.maxSubscriptions → Subscription) (name role : Bytes) (e : Event) :
    Prop :=
  ∀ i o level index sent, e = .propertyChanged i o level index sent →
    ∃ d : Device K, d.subs = subs ∧ d.deviceName = name ∧ d.deviceRole = role ∧ d.obj i = o ∧
      sent = (d.notifyAll i level index).2

/-- From `d` to `d'` the table and the texts stay, and notifications are built from them. -/
structure KeepsTable (d d' : Device K) : Prop where
  subs : d'.subs = d.subs
  name : d'.deviceName = d.deviceName
  role : d'.deviceRole = d.deviceRole
  log : Log.Grows (Event.From d.subs d.deviceName d.deviceRole) d.log d'.log

namespace KeepsTable

theorem of_log (hsubs : d'.subs = d.subs) (hname : d'.deviceName = d.deviceName)
    (hrole : d'.deviceRole = d.deviceRole) (hlog : d'.log = d.log) : KeepsTable d d' :=
  ⟨hsubs, hname, hrole, by rw [hlog]⟩

/-- An event that is no notification. -/
theorem emit (d : Device K) {e : Event}
    (h : ∀ i o level index sent, e ≠ .propertyChanged i o level index sent) :
    KeepsTable d (d.emit e) :=
  ⟨rfl, rfl, rfl, .concat (fun _ _ _ _ _ he => absurd he (h _ _ _ _ _)) d.log⟩

theorem notify (d : Device K) (i : ObjRef) (level index : UInt16) :
    KeepsTable d (d.notify i level index) where
  subs := Device.subs_eq_of_core (Device.core_notify d i level index)
  name := by
    have hcore := congrArg Device.deviceName (Device.core_notify d i level index)
    exact hcore
  role := by
    have hcore := congrArg Device.deviceRole (Device.core_notify d i level index)
    exact hcore
  log := by
    refine Device.grows_notify (fun _ _ _ _ _ _ _ _ _ he => by cases he) ?_
    rintro _ _ _ _ _ ⟨⟩
    exact ⟨d, rfl, rfl, rfl, rfl, rfl⟩

theorem commitOrder : Device.CommitOrder (KeepsTable (K := K)) where
  refl d := .of_log rfl rfl rfl rfl
  trans {d d' d''} h h' := by
    have hlog := h'.log
    rw [h.subs, h.name, h.role] at hlog
    exact ⟨h'.subs.trans h.subs, h'.name.trans h.name, h'.role.trans h.role, h.log.trans hlog⟩
  modifyObj d i f := .of_log rfl rfl rfl rfl
  notify := notify
  controlChanged d i := by
    unfold Device.controlChanged
    split_ifs
    · exact .emit d fun _ _ _ _ _ h => by cases h
    · exact .of_log rfl rfl rfl rfl

end KeepsTable

/-- What one turn does to the table, and what it notifies. -/
structure TableTurn (d d' : Device K) : Prop where
  step : Slots.Step Subscription.inUse Subscription.key d.subs d'.subs
  log : Log.Grows (Event.From d.subs d'.deviceName d'.deviceRole) d.log d'.log

namespace TableTurn

theorem of_keeps (h : KeepsTable d d') : TableTurn d d' where
  step := by
    rw [h.subs]
    exact .refl _
  log := by
    rw [h.name, h.role]
    exact h.log

theorem of_log (hstep : Slots.Step Subscription.inUse Subscription.key d.subs d'.subs)
    (hlog : d'.log = d.log) : TableTurn d d' := ⟨hstep, by rw [hlog]⟩

/-- A notification behind a change of the texts. -/
theorem notify {e : Device K} (hsubs : e.subs = d.subs) (hlog : e.log = d.log) :
    TableTurn d (e.notify i level index) := by
  have h := KeepsTable.notify e i level index
  refine ⟨?_, ?_⟩
  · rw [h.subs, hsubs]
    exact .refl _
  · rw [h.name, h.role, ← hsubs, ← hlog]
    exact h.log

/-- A record at the end that is no notification. -/
theorem emit (h : TableTurn d d') {e : Event}
    (he : ∀ i o level index sent, e ≠ .propertyChanged i o level index sent) :
    TableTurn d (d'.emit e) :=
  ⟨h.step, h.log.trans (.concat (fun _ _ _ _ _ heq => absurd heq (he _ _ _ _ _)) d'.log)⟩

end TableTurn

/-- **A command** stores at most one entry, under a key that is not in the table. -/
theorem Outcome.table {st : Status} (h : Outcome d i level index st d') : TableTurn d d' := by
  have hcommit := KeepsTable.commitOrder (K := K)
  have hthen (f : Obj → Obj) (l x : UInt16) : TableTurn d ((d.modifyObj i f).notify i l x) :=
    .of_keeps (hcommit.trans (hcommit.modifyObj d i f) (hcommit.notify _ i l x))
  cases h with
  | same => exact .of_keeps (hcommit.refl d)
  | lock | unlock | agentLabel | grouper | matrix | truncatedMembers =>
    exact .of_keeps (hcommit.modifyObj d i _)
  | noRoom | notifications => exact .of_keeps (.of_log rfl rfl rfl rfl)
  | enabled | label => exact hthen _ _ _
  | num v => exact .of_keeps (hcommit.commitNum d i v level 1 true)
  | str s => exact .of_keeps (hcommit.commitStr d i s 5 1 true)
  | dsp p sel => exact .of_keeps (hcommit.dspWrite d i p sel true)
  | «recall» es | truncatedRecall es =>
    exact .of_keeps (Device.CommitOrder.recall hcommit d es)
  | @addGroup g slot name proxy d₁ hk h =>
    obtain ⟨hd₁, -⟩ := Device.eq_of_objectAlloc h
    have hproxy : KeepsTable d d₁ := by
      rw [hd₁]
      exact .of_log rfl rfl rfl rfl
    exact .of_keeps (hcommit.trans (hcommit.trans hproxy (hcommit.modifyObj _ _ _))
      (hcommit.modifyObj _ _ _))
  | deviceName s => exact .notify (e := { d with deviceName := strlcpy 64 s }) rfl rfl
  | deviceRole s => exact .notify (e := { d with deviceRole := strlcpy 48 s }) rfl rfl
  | subscribe k s hk hs hc hfree hnew =>
    refine .of_log (.fill hfree fun hmem => ?_) rfl
    rw [hc] at hnew
    rw [(mem_subKeys_iff d s.connIdx s.emitterOno s.eventLevel s.eventIndex).2 hmem] at hnew
    cases hnew
  | unsubscribe p =>
    refine .of_log (.drop fun k => ?_) rfl
    unfold Device.dropSubs
    dsimp only
    split_ifs
    · exact .inr rfl
    · exact .inl rfl

theorem execCommand_table (conn : ℕ) (cmd : Command) (c : Call K) :
    TableTurn c.dev (execCommand conn cmd c).2.dev := by
  refine execCommand_keeps (fun d st hd => hd.emit fun _ _ _ _ _ h => by cases h)
    (.of_log (.refl _) rfl) ?_
  intro i _
  exact (objectDispatch_outcome i cmd.level cmd.index c rfl).table

/-- **A turn** takes a step in the table, and notifies from the table it found. -/
theorem Turn.table {t : Turn K} (h : t.Legal d) : TableTurn d (t.run d) := by
  have hcommit := KeepsTable.commitOrder (K := K)
  cases t with
  | create call parent role =>
    obtain ⟨objects, next, he⟩ := d.create_eq call parent role
    change TableTurn d (d.create call parent role)
    rw [he]
    exact .of_log (.refl _) rfl
  | setMember i x y member =>
    obtain ⟨objects, he⟩ := d.matrixSetMember_eq i x y member
    change TableTurn d (d.matrixSetMember i x y member)
    rw [he]
    exact .of_log (.refl _) rfl
  | command conn cmd params =>
    have hexec := execCommand_table conn cmd
      ⟨{ d with activeConn := some conn }, params, Writer.init K.txBufferSize, 0⟩
    exact ⟨hexec.step, hexec.log⟩
  | set req => exact .of_keeps (Device.CommitOrder.applySet hcommit d req)
  | send c frame =>
    have hcore := Device.core_connSend d c frame
    refine ⟨?_, Device.grows_connSend (fun _ _ _ _ _ _ h => by cases h) d⟩
    change Slots.Step _ _ d.subs (d.connSend c frame).subs
    rw [Device.subs_eq_of_core hcore]
    exact .refl _
  | session d' =>
    refine ⟨.drop (Beside.subs h), (Beside.log h).mono fun e he => ?_⟩
    rintro _ _ _ _ _ rfl
    cases he

theorem distinct_of_reach (h : (turns K).Reach d) :
    Slots.Distinct Subscription.inUse Subscription.key d.subs := by
  refine h.invariant (I := fun d : Device K => Slots.Distinct Subscription.inUse Subscription.key
    d.subs) (fun d hd => ?_) fun d t _ hd ht => (Turn.table ht).step.distinct hd
  obtain ⟨cfg, net, hstart⟩ := hd
  obtain ⟨e, rfl⟩ := start_eq hstart
  intro k k' huse
  cases huse

/-- While a slot is in use its entry stays. -/
theorem subs_of_run {k : Fin K.maxSubscriptions} {ts : List (Turn K)}
    (h : ((turns K).restrict fun d t => ((t.run d).subs k).inUse = true).Run d ts d')
    (huse : (d.subs k).inUse = true) : d'.subs k = d.subs k ∧ (d'.subs k).inUse = true := by
  refine h.invariant (I := fun e : Device K => e.subs k = d.subs k ∧ (e.subs k).inUse = true)
    ⟨rfl, huse⟩ fun e t ih ht => ?_
  exact ⟨((Turn.table ht.1).step.kept ih.2 ht.2).trans ih.1, ht.2⟩

/-! ### Frames -/

/-- The frames of a notification are those of the slots that watch the object. -/
theorem mem_notifyAll {c : ℕ} {f : Bytes} (h : (c, f) ∈ (d.notifyAll i level index).2) :
    ∃ k, (d.subs k).watches (d.obj i).ono = true ∧ (d.subs k).connIdx = c ∧
      d.notificationFrame (d.subs k) i level index = some f := by
  have hall : (d.notifyAll i level index).1.core = d.core ∧ ∀ p ∈ (d.notifyAll i level index).2,
      ∃ k, (d.subs k).watches (d.obj i).ono = true ∧ (d.subs k).connIdx = p.1 ∧
        d.notificationFrame (d.subs k) i level index = some p.2 := by
    refine List.foldlRecOn (motive := fun st : Device K × List (ℕ × Bytes) => st.1.core = d.core ∧
      ∀ p ∈ st.2, ∃ k, (d.subs k).watches (d.obj i).ono = true ∧ (d.subs k).connIdx = p.1 ∧
        d.notificationFrame (d.subs k) i level index = some p.2) _ _
      ⟨rfl, fun _ hp => absurd hp List.not_mem_nil⟩ fun st ih k _ => ?_
    obtain ⟨hcore, hmem⟩ := ih
    refine ⟨(Device.core_notifySlot i level index st k).trans hcore, ?_⟩
    simp only [Device.notifySlot, Device.subs_eq_of_core hcore, Device.obj_eq_of_core hcore,
      Device.notificationFrame_of_core hcore]
    split_ifs with hwatches
    · split
      next frame hframe =>
        intro p hp
        obtain hp | hp := List.mem_append.1 hp
        · exact hmem p hp
        · rw [List.mem_singleton.1 hp]
          exact ⟨k, hwatches, rfl, hframe⟩
      next => exact hmem
    · exact hmem
  exact hall.2 (c, f) h

/-- A notification as its subscriber reads it. -/
structure Notification where
  target : UInt32
  methodLevel : UInt16
  methodIndex : UInt16
  context : Bytes
  emitter : UInt32
  eventLevel : UInt16
  eventIndex : UInt16
  propLevel : UInt16
  propIndex : UInt16
  value : Bytes
  changeType : UInt8
deriving DecidableEq

namespace Notification

/-- The fields in front of the value: target, method, number of parameters, context, emitter, event
and property. -/
def headTypes : List ItemType :=
  [.u32, .u16, .u16, .u8, .blob, .u32, .u16, .u16, .u16, .u16]

/-- The notification with these fields, of two parameters, before its value. -/
def ofHead : List Item → Option (Bytes → UInt8 → Notification)
  | [.u32 target, .u16 ml, .u16 mx, .u8 n, .blob context, .u32 emitter, .u16 el, .u16 ex, .u16 pl,
      .u16 px] =>
    if n = 2 then some (⟨target, ml, mx, context, emitter, el, ex, pl, px, ·, ·⟩) else none
  | _ => none

/-- Read a PDU that holds one notification: the header, the size, the fields, and what is left is
the value and the change type. -/
def decode (f : Bytes) : Option Notification :=
  if f.take 14 = [ocp1SyncVal] ++ wr16 ocp1ProtoVersion ++ wr32 (UInt32.ofNat (f.length - 1)) ++
      [MsgType.ntf.code] ++ wr16 1 ++ wr32 (UInt32.ofNat (f.length - 10)) then
    let (head, rd) := Read.all headTypes (Reader.ofBytes (f.drop 14))
    let data := f.drop (14 + rd.off)
    if rd.err then none else
      (ofHead head).bind fun n => data.getLast?.map fun change => n data.dropLast change
  else none

end Notification

/-- **A notification is read** as the entry and the event say. -/
theorem decode_notificationFrame {s : Subscription} {f : Bytes} (hctx : s.context.length ≤ 8)
    (h : d.notificationFrame s i level index = some f) :
    Notification.decode f = some ⟨s.subOno, s.subMethodLevel, s.subMethodIndex, s.context,
      (d.obj i).ono, 1, 1, level, index,
      Field.encodeAll ((d.encodeProperty i level index).getD []), 1⟩ := by
  let head : List Item := [.u32 s.subOno, .u16 s.subMethodLevel, .u16 s.subMethodIndex, .u8 2,
    .blob s.context, .u32 (d.obj i).ono, .u16 1, .u16 1, .u16 level, .u16 index]
  let value := Field.encodeAll ((d.encodeProperty i level index).getD [])
  let body := Field.encodeAll (head.map Item.field) ++ (value ++ [1])
  let pre := [ocp1SyncVal] ++ wr16 ocp1ProtoVersion ++
    wr32 (UInt32.ofNat (9 + (4 + body.length))) ++ [MsgType.ntf.code] ++ wr16 1 ++
      wr32 (UInt32.ofNat (4 + body.length))
  have hpre : pre.length = 14 := by simp [pre]
  have hf : f = pre ++ body := by
    have hbody : Field.encodeAll (notificationBody d s i level index) = body := by
      rw [notificationBody, encodeAll_append, encodeAll_append, List.append_assoc]
      rfl
    rw [(notificationFrame_eq h).1, outgoingPdu, notificationMessage, hbody]
    simp only [pre, List.length_append, length_wr32, List.append_assoc]
  have htake : f.take 14 = pre := by rw [hf, ← hpre, List.take_left]
  have hdrop : f.drop 14 = body := by rw [hf, ← hpre, List.drop_left]
  have hlen : f.length = 14 + body.length := by rw [hf, List.length_append, hpre]
  -- the fields in front of the value
  have hvalid : ∀ v ∈ head, v.Valid := by
    simp only [head, List.forall_mem_cons, Item.Valid, true_and]
    exact ⟨by omega, fun _ hv => by cases hv⟩
  have hsuits : List.Forall₂ Item.Suits head Notification.headTypes := by
    repeat constructor
  have hnext : (Reader.ofBytes body).Next (Field.encodeAll (head.map Item.field)) :=
    (Reader.next_init (Ptr.read_ofBytes body _)).append.1
  obtain ⟨hhead, herr, hoff⟩ := Read.all_next hvalid hsuits rfl hnext
  have hsize : (head.map Item.size).sum = (Field.encodeAll (head.map Item.field)).length :=
    (MemWriter.length_encodeItems head).symm
  have hend : f.drop (14 + (Read.all Notification.headTypes (Reader.ofBytes body)).2.off) =
      value ++ [1] := by
    rw [← List.drop_drop, hdrop, hoff, hsize]
    exact (congrArg (List.drop · body) (Nat.zero_add _)).trans List.drop_left
  unfold Notification.decode
  rw [if_pos]
  · rw [hdrop]
    dsimp only
    rw [herr, hhead, hend]
    simp [head, Notification.ofHead, value]
  · rw [htake, hlen, show 14 + body.length - 1 = 9 + (4 + body.length) by omega,
      show 14 + body.length - 10 = 4 + body.length by omega]

/-! ### Requests -/

/-- The parameters of an EV1 AddSubscription. -/
structure AddRequest where
  emitter : UInt32
  eventLevel : UInt16
  eventIndex : UInt16
  subOno : UInt32
  subMethodLevel : UInt16
  subMethodIndex : UInt16
  context : Bytes
  delivery : UInt8
  /-- The length of the context is sent in 16 bits. -/
  context_le : context.length ≤ 0xFFFF

namespace AddRequest

/-- The fields of the request; the destination follows. -/
def fields (q : AddRequest) : List Field :=
  [.u32 q.emitter, .u16 q.eventLevel, .u16 q.eventIndex, .u32 q.subOno, .u16 q.subMethodLevel,
    .u16 q.subMethodIndex, .blob q.context, .u8 q.delivery]

/-- What the table keeps of the request of connection `conn`. -/
def entry (q : AddRequest) (conn : ℕ) : Subscription :=
  ⟨true, conn, q.emitter, q.eventLevel, q.eventIndex, q.subOno, q.subMethodLevel, q.subMethodIndex,
    q.context.take 8, q.delivery⟩

end AddRequest

/-- The command is an EV1 AddSubscription with this request. -/
def Device.Adds (d : Device K) (cmd : Command) (q : AddRequest) : Prop :=
  cmd.level = 3 ∧ cmd.index = 1 ∧ (∃ rest, cmd.params = Field.encodeAll q.fields ++ rest) ∧
    ∃ i, d.find cmd.target = some i ∧ (d.obj i).kind = .subscriptionManager

/-- The next three fields name an event, or a method. -/
theorem readEvent_next {r : Reader} {ono : UInt32} {level index : UInt16} (he : r.err = false)
    (h : r.Next (wr32 ono ++ (wr16 level ++ wr16 index))) :
    readEvent r = ((ono, level, index), r.advance 8) := by
  obtain ⟨hono, h⟩ := h.append
  rw [length_wr32] at h
  obtain ⟨hlevel, hindex⟩ := h.append
  rw [length_wr16] at hindex
  have hsecond : Read.u16 (r.advance 4) = (level, (r.advance 4).advance 2) :=
    Read.u16_next he hlevel
  have hthird : Read.u16 ((r.advance 4).advance 2) = (index, ((r.advance 4).advance 2).advance 2) :=
    Read.u16_next he hindex
  unfold readEvent
  simp only [Read.bind_apply, Read.pure_apply, Read.u32_next he hono, hsecond, hthird]
  rw [Reader.advance_advance, Reader.advance_advance]

/-- **A request is read** as it was written, of the context the first eight bytes. -/
theorem readSubscription_next {r : Reader} {q : AddRequest} {rest : Bytes} (he : r.err = false)
    (h : r.Next (Field.encodeAll q.fields ++ rest)) :
    (readSubscription false r).1 = q.entry 0 ∧ (readSubscription false r).2.err = false := by
  have hfields : Field.encodeAll q.fields ++ rest =
      (wr32 q.emitter ++ (wr16 q.eventLevel ++ wr16 q.eventIndex)) ++
        ((wr32 q.subOno ++ (wr16 q.subMethodLevel ++ wr16 q.subMethodIndex)) ++
          ((wr16 (UInt16.ofNat q.context.length) ++ q.context) ++ ([q.delivery] ++ rest))) := by
    simp [AddRequest.fields, Field.encodeAll, Field.encode, Field.pieces]
  rw [hfields] at h
  obtain ⟨hevent, h⟩ := h.append
  obtain ⟨hmethod, h⟩ := h.append
  obtain ⟨hcontext, h⟩ := h.append
  obtain ⟨hdelivery, -⟩ := h.append
  rw [show (wr32 q.emitter ++ (wr16 q.eventLevel ++ wr16 q.eventIndex)).length = 8 by simp]
    at hmethod hcontext hdelivery
  rw [show (wr32 q.subOno ++ (wr16 q.subMethodLevel ++ wr16 q.subMethodIndex)).length = 8 by simp]
    at hcontext hdelivery
  rw [List.length_append, length_wr16] at hdelivery
  have hsecond : readEvent (r.advance 8) = ((q.subOno, q.subMethodLevel, q.subMethodIndex), _) :=
    readEvent_next he hmethod
  have hblob : Read.blob ((r.advance 8).advance 8) = (some q.context, _) :=
    Read.blob_next q.context_le he hcontext
  have hlast : Read.u8 (((r.advance 8).advance 8).advance (2 + q.context.length)) =
      (q.delivery, _) := Read.u8_next he hdelivery
  unfold readSubscription
  simp only [Bool.false_eq_true, if_false, Read.bind_apply, Read.pure_apply,
    readEvent_next he hevent, hsecond, hblob, hlast]
  exact ⟨rfl, he⟩

/-- The slot that an Add fills holds the entry it has read. -/
theorem addSubscription_entry {ev2 : Bool} {conn : ℕ} {c : Call K}
    (hactive : c.dev.activeConn = some conn) {k : Fin K.maxSubscriptions}
    (hfree : (c.dev.subs k).inUse = false) :
    Handler.DoesAt (addSubscription ev2) c fun _ d' => (d'.subs k).inUse = true →
      d'.subs k = { (readSubscription ev2 c.rd).1 with connIdx := conn } := by
  have hsame {s : Subscription} (huse : (c.dev.subs k).inUse = true) : c.dev.subs k = s := by
    rw [hfree] at huse
    cases huse
  refine Handler.doesAt_reading hsame fun _ => Handler.does_look ?_
  rw [hactive]
  refine Handler.does_ite (fun _ => Handler.does_ret hsame) fun _ => ?_
  split
  · exact Handler.does_ret hsame
  · next slot _ =>
    refine Handler.does_store fun huse => ?_
    by_cases hk : k = slot
    · rw [hk]
      exact Function.update_self ..
    · have hother := Function.update_of_ne hk
        { (readSubscription ev2 c.rd).1 with connIdx := conn } c.dev.subs
      exact hother.trans (hsame (hother ▸ huse))

/-- **The new entry** is the one of the request. -/
theorem Device.Adds.subs {conn : ℕ} {cmd : Command} {rd : Reader} {q : AddRequest}
    (h : d.Adds cmd q) (hlegal : (Turn.command conn cmd rd : Turn K).Legal d)
    {k : Fin K.maxSubscriptions} (hfree : (d.subs k).inUse = false)
    (huse : (((Turn.command conn cmd rd).run d).subs k).inUse = true) :
    ((Turn.command conn cmd rd).run d).subs k = q.entry conn := by
  obtain ⟨hlevel, hindex, ⟨rest, hparams⟩, i, hfind, hkind⟩ := h
  obtain ⟨-, p, hrd, hbytes⟩ := hlegal
  dsimp only at hrd
  subst hrd
  rw [hparams] at hbytes
  obtain ⟨hentry, -⟩ := readSubscription_next (r := Reader.init p cmd.params.length) rfl
    (Reader.next_init (by rw [hparams]; exact hbytes))
  let c : Call K :=
    ⟨{ d with activeConn := some conn }, Reader.init p cmd.params.length,
      Writer.init K.txBufferSize, 0⟩
  have hdispatch : objectDispatch i cmd.level cmd.index c = addSubscription false c := by
    have hkind : (c.dev.obj i).kind = .subscriptionManager := hkind
    have hquery : methodIsWrite (c.dev.obj i).kind cmd.level cmd.index = false := by
      rw [hkind, hlevel, hindex]
      rfl
    rw [objectDispatch_of_handler (h := submgrDispatch) (by rw [hlevel, hkind]; rfl)
      (gate_of_query hquery) rfl, hindex]
    rfl
  have hrun : ((Turn.command conn cmd (Reader.init p cmd.params.length)).run d).subs =
      (addSubscription false c).2.dev.subs := by
    change (execCommand conn cmd c).2.dev.subs = _
    have hfind : c.dev.find cmd.target = some i := hfind
    rw [execCommand_of_find hfind, hdispatch]
    rfl
  rw [hrun] at huse ⊢
  rw [addSubscription_entry rfl hfree huse, show c.rd = Reader.init p cmd.params.length from rfl,
    hentry]
  rfl

/-! ### Delivery -/

namespace AddRequest

/-- The request asks for the property changes of the object. -/
def Concerns (q : AddRequest) (o : Obj) : Prop :=
  q.emitter = o.ono ∧ q.eventLevel = 1 ∧ q.eventIndex = 1

/-- The notification that a property of the object, with this encoded value, has changed. -/
def notification (q : AddRequest) (o : Obj) (level index : UInt16) (value : Bytes) : Notification :=
  ⟨q.subOno, q.subMethodLevel, q.subMethodIndex, q.context, o.ono, 1, 1, level, index, value, 1⟩

end AddRequest

/-- The turn notifies connection `conn` that a property of `o` has changed, with the frame `f`. -/
def Turn.Notifies (d : Device K) (t : Turn K) (conn : ℕ) (o : Obj) (level index : UInt16)
    (f : Bytes) : Prop :=
  ∃ i sent, .propertyChanged i o level index sent ∈ (t.run d).log.drop d.log.length ∧
    (conn, f) ∈ sent

/-- A notification is built from the one entry its connection has for the object, and from the
values behind the turn. -/
theorem Turn.Notifies.entry {t : Turn K} (h : (turns K).Reach d) (ht : t.Legal d) {conn : ℕ}
    {o : Obj} {f : Bytes} (hf : t.Notifies d conn o level index f) {k : Fin K.maxSubscriptions}
    (huse : (d.subs k).inUse = true) (hkey : (d.subs k).key = ⟨conn, o.ono, 1, 1⟩) :
    ∃ (e : Device K) (i : ObjRef), e.obj i = o ∧ e.deviceName = (t.run d).deviceName ∧
      e.deviceRole = (t.run d).deviceRole ∧
        e.notificationFrame (d.subs k) i level index = some f := by
  obtain ⟨i, sent, hmem, hsent⟩ := hf
  obtain ⟨es, hlog, hes⟩ := (Turn.table ht).log
  rw [hlog, List.drop_left] at hmem
  obtain ⟨e, hsubs, hname, hrole, hobj, rfl⟩ := hes _ hmem i o level index sent rfl
  obtain ⟨k', hwatches, hconn, hframe⟩ := mem_notifyAll hsent
  rw [hsubs] at hwatches hconn hframe
  obtain ⟨huse', hkey'⟩ := (watches_iff _ _).1 hwatches
  rw [hconn, hobj] at hkey'
  obtain rfl : k' = k := distinct_of_reach h k' k huse' huse (hkey'.trans hkey.symm)
  exact ⟨e, i, hobj, hname, hrole, hframe⟩

/-- **What a subscriber gets back**. An EV1 request has taken slot `k`, which stays in use. A
notification that a turn sends for it says what the request asked for, the context included, exactly
if the context has at most eight bytes. -/
theorem subscriber_carried_iff {conn : ℕ} {cmd : Command} {rd : Reader} {q : AddRequest}
    {k : Fin K.maxSubscriptions} {ts : List (Turn K)} {t : Turn K} {o : Obj} {f : Bytes}
    (h : (turns K).Reach d) (hadd : d.Adds cmd q)
    (hlegal : (Turn.command conn cmd rd : Turn K).Legal d) (hfree : (d.subs k).inUse = false)
    (huse : (((Turn.command conn cmd rd).run d).subs k).inUse = true)
    (hrun : ((turns K).restrict fun e t => ((t.run e).subs k).inUse = true).Run
      ((Turn.command conn cmd rd).run d) ts d')
    (ht : t.Legal d') (hf : t.Notifies d' conn o level index f) (ho : q.Concerns o) :
    Notification.decode f = some (q.notification o level index (Field.encodeAll
      ((o.property (t.run d').deviceName (t.run d').deviceRole level index).getD []))) ↔
      q.context.length ≤ 8 := by
  have hentry := hadd.subs hlegal hfree huse
  obtain ⟨hkept, huse'⟩ := subs_of_run hrun huse
  rw [hentry] at hkept
  have hreach : (turns K).Reach d' :=
    (h.step (i := Turn.command conn cmd rd) hlegal).run hrun.of_restrict
  obtain ⟨hemitter, hlevel, hindex⟩ := ho
  have hkey : (d'.subs k).key = ⟨conn, o.ono, 1, 1⟩ := by
    rw [hkept]
    change (⟨conn, q.emitter, q.eventLevel, q.eventIndex⟩ : Key) = _
    rw [hemitter, hlevel, hindex]
  obtain ⟨e, i, rfl, hname, hrole, hframe⟩ := hf.entry hreach ht huse' hkey
  rw [hkept] at hframe
  rw [decode_notificationFrame (List.length_take_le 8 _) hframe, e.encodeProperty_eq, hname, hrole]
  simp only [AddRequest.entry, AddRequest.notification, Option.some.injEq, Notification.mk.injEq,
    true_and, and_true]
  exact List.take_eq_self_iff _

namespace Sample

/-- A subscription to the root block, to be notified by method (4, 1) of object 77. -/
def watchRoot (context : Bytes) (h : context.length ≤ 0xFFFF) : AddRequest :=
  ⟨100, 1, 1, 77, 4, 1, context, 1, h⟩

def eight : AddRequest := watchRoot [1, 2, 3, 4, 5, 6, 7, 8] (by decide)

def nine : AddRequest := watchRoot [1, 2, 3, 4, 5, 6, 7, 8, 9] (by decide)

/-- The command that carries a request. -/
def watchCommand (q : AddRequest) : Command := ⟨1, 4, 3, 1, 5, Field.encodeAll q.fields⟩

def watchTurn (q : AddRequest) : Turn .default :=
  .command 0 (watchCommand q) (Reader.ofBytes (Field.encodeAll q.fields))

/-- The device behind the request. -/
def watched (q : AddRequest) : Device .default := (watchTurn q).run connected

/-- The root block gets a label of one character. -/
def labelTurn (c : UInt8) : Turn .default :=
  .command 0 ⟨2, 100, 2, 9, 1, [0, 1, c]⟩ (Reader.ofBytes [0, 1, c])

/-- How the new label is notified, with the context of eight bytes. -/
def labelFrame (c : UInt8) : Bytes :=
  [0x3B, 0, 4, 0, 0, 0, 48, 2, 0, 1, 0, 0, 0, 39, 0, 0, 0, 77, 0, 4, 0, 1, 2, 0, 8, 1, 2, 3, 4, 5,
    6, 7, 8, 0, 0, 0, 100, 0, 1, 0, 1, 0, 2, 0, 3, 0, 1, c, 1]

/-- Two labels are set; the second is notified with the whole context. -/
theorem subscriber_carried_eight :
    Notification.decode (labelFrame 0x79) =
      some ⟨77, 4, 1, [1, 2, 3, 4, 5, 6, 7, 8], 100, 1, 1, 2, 3, [0, 1, 0x79], 1⟩ := by
  have hreach : (turns .default).Reach connected := reach_turns reach_connected
  have hadd : connected.Adds (watchCommand eight) eight :=
    ⟨rfl, rfl, ⟨[], (List.append_nil _).symm⟩, 1, by decide +kernel, rfl⟩
  have hlegal : (watchTurn eight).Legal connected := ⟨rfl, _, rfl, Ptr.read_ofBytes _ _⟩
  have hlabel (c : UInt8) (d : Device .default) : (labelTurn c).Legal d :=
    ⟨rfl, _, rfl, Ptr.read_ofBytes _ _⟩
  have hrun : ((turns .default).restrict fun e t => ((t.run e).subs (0 : Fin 64)).inUse = true).Run
      (watched eight) [labelTurn 0x78] ((labelTurn 0x78).run (watched eight)) :=
    .cons ⟨hlabel 0x78 (watched eight), by decide +kernel⟩ (.nil _)
  have hnotifies : (labelTurn 0x79).Notifies ((labelTurn 0x78).run (watched eight)) 0
      (((labelTurn 0x79).run ((labelTurn 0x78).run (watched eight))).obj 2) 2 3 (labelFrame 0x79) :=
    ⟨2, [(0, labelFrame 0x79)], by decide +kernel, .head _⟩
  have hdecode := (subscriber_carried_iff hreach hadd hlegal (by decide +kernel) (by decide +kernel)
    hrun (hlabel 0x79 _) hnotifies ⟨by decide +kernel, rfl, rfl⟩).2 (by decide)
  rw [hdecode]
  decide +kernel

/-- Of a context of nine bytes the last is lost, though the request was accepted. -/
theorem nine_not_carried :
    connected.Adds (watchCommand nine) nine ∧
      (answer 512 0 (watchCommand nine) (Reader.ofBytes (Field.encodeAll nine.fields))
        connected).response.status = .ok ∧
      (connected.subs (0 : Fin 64)).inUse = false ∧
      ((watched nine).subs (0 : Fin 64)).inUse = true ∧
      ∃ o, nine.Concerns o ∧
        (labelTurn 0x78).Notifies (watched nine) 0 o 2 3 (labelFrame 0x78) ∧
        Notification.decode (labelFrame 0x78) ≠ some (nine.notification o 2 3 [0, 1, 0x78]) := by
  have hadd : connected.Adds (watchCommand nine) nine :=
    ⟨rfl, rfl, ⟨[], (List.append_nil _).symm⟩, 1, by decide +kernel, rfl⟩
  refine ⟨hadd, by decide +kernel, by decide +kernel, by decide +kernel,
    ((labelTurn 0x78).run (watched nine)).obj 2, ⟨by decide +kernel, rfl, rfl⟩,
    ⟨2, [(0, labelFrame 0x78)], by decide +kernel, .head _⟩, by decide +kernel⟩

end Sample

end Aes70
