import Aes70.Device.Callback
import Aes70.Server.Mirror
import Aes70.Server.Sessions
import Aes70.Server.Turns

/-!
# What is sent, over whole runs

Every frame goes out through `aes70_conn_send`, from three places. `SendOrder` is the induction over
what the device does for statements about what it sends: a preorder on devices that respects sending
and recording is respected by every turn.

* `SendOrder F R` : `R` respects the sending of frames that satisfy `F`.
* `SendOrder.turn` : so it relates the two ends of a turn.
* `Event.Sends F e` : every frame the event is about satisfies `F`.
* `DropsOverflow d` : a frame that overflows is not sent.
* `outgoing_framed` : every frame is framed, and no writer leaves its buffer.
-/

namespace Aes70

open Handler

variable {K : Kconfig}

/-! ### The application's turns -/

/-- A constructor registers an object, and that is all. -/
theorem Device.create_eq (d : Device K) (call : Create) (parent : Option ObjRef) (role : Bytes) :
    ∃ objects next, d.create call parent role = { d with objects := objects, nextOno := next } := by
  cases halloc : d.objectAlloc call.kind parent role with
  | mk new e =>
    cases new with
    | none =>
      obtain ⟨-, rfl⟩ := objectAlloc_none halloc
      exact ⟨d.objects, d.nextOno + 1, by simp only [create, halloc]⟩
    | some new =>
      obtain ⟨he, -⟩ := eq_of_objectAlloc halloc
      have hset : e.modifyObj new call.setup = { d with
          objects := (e.modifyObj new call.setup).objects, nextOno := d.nextOno + 1 } := by
        conv_lhs => rw [he]
        rfl
      exact ⟨_, _, by simpa only [create, halloc] using hset⟩

/-- A store into a cell of a matrix is one into its object. -/
theorem Device.matrixSetMember_eq (d : Device K) (i : ObjRef) (x y : UInt16)
    (member : Option ObjRef) :
    ∃ objects, d.matrixSetMember i x y member = { d with objects := objects } := by
  unfold matrixSetMember
  split
  · split_ifs
    · exact ⟨_, rfl⟩
    · exact ⟨d.objects, rfl⟩
  · exact ⟨d.objects, rfl⟩

/-! ### Orders that sending respects -/

/-- The frames the event is about, if any, satisfy `F`. -/
def Event.Sends (F : Bytes → Prop) : Event → Prop
  | .tx _ frame _ => F frame
  | .propertyChanged _ _ _ _ sent => ∀ p ∈ sent, F p.2
  | _ => True

/-- Not the transmission of a frame. -/
def Event.isQuiet : Event → Bool
  | .tx .. => false
  | _ => true

/-- A preorder on devices that does not see more than the log and the network, and respects records
and the sending of frames that satisfy `F`. -/
structure SendOrder (F : Bytes → Prop) (R : Device K → Device K → Prop) : Prop where
  refl : ∀ d, R d d
  trans : ∀ {d d' d''}, R d d' → R d' d'' → R d d''
  same : ∀ {d d'}, d'.log = d.log → d'.net = d.net → R d d'
  emit : ∀ d {e : Event}, e.isQuiet = true → e.Sends F → R d (d.emit e)
  send : ∀ d c {frame}, F frame → R d (d.connSend c frame)

namespace SendOrder

variable {F : Bytes → Prop} {R : Device K → Device K → Prop} (hR : SendOrder F R)
  (hF : ∀ f, Framed K f → F f) {d d' : Device K} {i : ObjRef} {level index : UInt16}
include hR

theorem foldl {α : Type} {f : Device K → α → Device K} {l : List α}
    (hf : ∀ d, ∀ a ∈ l, R d (f d a)) (d : Device K) : R d (l.foldl f d) :=
  List.foldlRecOn (motive := fun d' => R d d') _ _ (hR.refl d)
    fun d' ih a ha => hR.trans ih (hf d' a ha)

include hF

theorem notifySlot (i : ObjRef) (level index : UInt16) (st : Device K × List (ℕ × Bytes))
    (k : Fin K.maxSubscriptions)
    (hst : ∀ p ∈ st.2, F p.2) : R st.1 (Device.notifySlot i level index st k).1 ∧
      ∀ p ∈ (Device.notifySlot i level index st k).2, F p.2 := by
  simp only [Device.notifySlot]
  split_ifs
  · split
    next f hf =>
      have hframe : F f := hF f (framed_notification hf)
      refine ⟨hR.send _ _ hframe, fun p hp => ?_⟩
      obtain hp | hp := List.mem_append.1 hp
      · exact hst p hp
      · rw [List.mem_singleton.1 hp]
        exact hframe
    · exact ⟨hR.refl _, hst⟩
  · exact ⟨hR.refl _, hst⟩

theorem notify (d : Device K) (i : ObjRef) (level index : UInt16) :
    R d (d.notify i level index) := by
  have hall : R d (d.notifyAll i level index).1 ∧ ∀ p ∈ (d.notifyAll i level index).2, F p.2 :=
    List.foldlRecOn (motive := fun st : Device K × List (ℕ × Bytes) =>
      R d st.1 ∧ ∀ p ∈ st.2, F p.2) _ _ ⟨hR.refl d, fun _ h => absurd h List.not_mem_nil⟩
        fun st ih k _ =>
          have hslot := hR.notifySlot hF i level index st k ih.2
          ⟨hR.trans ih.1 hslot.1, hslot.2⟩
  rw [Device.notify_eq]
  split_ifs
  · exact hR.refl d
  · exact hR.trans hall.1 (hR.emit _ rfl hall.2)

/-- What commits are made of. -/
theorem commitOrder : Device.CommitOrder R where
  refl := hR.refl
  trans := hR.trans
  modifyObj _ _ _ := hR.same rfl rfl
  notify d i level index := hR.notify hF d i level index
  controlChanged d i := by
    unfold Device.controlChanged
    split_ifs
    · exact hR.emit d rfl trivial
    · exact hR.refl d

/-- **What a command does** respects the order. -/
theorem outcome {st : Status} (h : Outcome d i level index st d') : R d d' :=
  Device.CommitOrder.outcome (hR.commitOrder hF) (fun _ _ _ _ _ _ _ => hR.same rfl rfl) h

theorem execCommand (conn : ℕ) (cmd : Command) (c : Call K) :
    R c.dev (execCommand conn cmd c).2.dev := by
  refine execCommand_keeps (fun d st hd => hR.trans hd (hR.emit d rfl trivial)) (hR.refl _) ?_
  intro i _
  exact hR.outcome hF (objectDispatch_outcome i cmd.level cmd.index c rfl)

/-- **So does every turn.** -/
theorem turn {t : Turn K} (h : t.Legal d) : R d (t.run d) := by
  cases t with
  | create call parent role =>
    obtain ⟨objects, next, he⟩ := d.create_eq call parent role
    change R d (d.create call parent role)
    rw [he]
    exact hR.same rfl rfl
  | setMember i x y member =>
    obtain ⟨objects, he⟩ := d.matrixSetMember_eq i x y member
    change R d (d.matrixSetMember i x y member)
    rw [he]
    exact hR.same rfl rfl
  | command conn cmd params =>
    have hstart : R d { d with activeConn := some conn } := hR.same rfl rfl
    exact hR.trans hstart (hR.execCommand hF conn cmd
      ⟨{ d with activeConn := some conn }, params, Writer.init K.txBufferSize, 0⟩)
  | set req => exact Device.CommitOrder.applySet (hR.commitOrder hF) d req
  | send c frame => exact hR.send d c (hF frame h)
  | session d' =>
    obtain ⟨es, hlog, hes⟩ := Beside.log h
    have hrecord : R d (es.foldl Device.emit d) :=
      hR.foldl (fun d e he => by
        have hsession := hes e he
        cases e with
        | accepted | authorized | closed => exact hR.emit d rfl trivial
        | _ => cases hsession) d
    have hemit : (es.foldl Device.emit d).log = d.log ++ es ∧
        (es.foldl Device.emit d).net = d.net := Device.foldl_emit es d
    exact hR.trans hrecord (hR.same (hlog.trans hemit.1.symm) ((Beside.net h).trans hemit.2.symm))

end SendOrder

/-! ### Overflow -/

/-- A frame that overflows is not sent: the device goes on as without it. -/
structure DropsOverflow (d : Device K) : Prop where
  response : ∀ (c : Fin K.maxConnections) (f : Frame) (mem : Ptr),
    f.mtype = MsgType.cmdRrq.code →
    (pduLoop d c f.mcount (Ptr.ofBytes f.body mem) f.body.length K.txBufferSize).resp.err = true →
      d.handleFrame c f mem = (routeCommandPdu d c .cmdRrq f.mcount (Ptr.ofBytes f.body mem)
        f.body.length K.txBufferSize).1
  notification : ∀ (i : ObjRef) (level index : UInt16) (sent : List (ℕ × Bytes))
    (k : Fin K.maxSubscriptions),
    ((Writer.init K.txBufferSize).fields
      (d.notificationFields (d.subs k) i level index)).err = true →
      Device.notifySlot i level index (d, sent) k = (d, sent)

theorem notificationFrame_of_overflow {d : Device K} {s : Subscription} {i : ObjRef}
    {level index : UInt16} (h : ((Writer.init K.txBufferSize).fields
      (d.notificationFields s i level index)).err = true) :
    d.notificationFrame s i level index = none := by
  simp only [Device.notificationFields, Writer.fields_append] at h
  unfold Device.notificationFrame
  dsimp only
  exact if_pos h

theorem dropsOverflow (d : Device K) : DropsOverflow d where
  response c f mem htype herr := by
    have hcmd : f.mtype ≠ MsgType.cmd.code := by
      rw [htype]
      decide
    have hnone : (routeCommandPdu d c .cmdRrq f.mcount (Ptr.ofBytes f.body mem) f.body.length
        K.txBufferSize).2 = [] := by
      rw [routeCommandPdu_eq]
      exact if_pos herr
    unfold Device.handleFrame
    rw [if_neg hcmd, if_pos htype]
    exact if_pos hnone
  notification i level index sent k herr := by
    simp only [Device.notifySlot, notificationFrame_of_overflow herr, ite_self]

/-! ### The server -/

/-- Sending framed frames adds framed frames to the log. -/
theorem sendOrder_framed : SendOrder (K := K) (Framed K)
    fun d d' => Log.Grows (Event.Sends (Framed K)) d.log d'.log where
  refl d := .refl d.log
  trans h h' := h.trans h'
  same hlog _ := by rw [hlog]
  emit d _ _ he := .concat he d.log
  send d _ _ hf := Device.grows_connSend (fun _ => hf) d

theorem sends_of_reach {d : Device K} (h : (server K).Reach d) :
    ∀ e ∈ d.log, e.Sends (Framed K) := by
  refine (reach_turns h).invariant (I := fun d : Device K => ∀ e ∈ d.log, e.Sends (Framed K))
    (fun d hd => ?_) fun d t _ ih ht => ?_
  · obtain ⟨cfg, net, hstart⟩ := hd
    obtain ⟨e, rfl⟩ := start_eq hstart
    exact fun e he => absurd he List.not_mem_nil
  · exact (sendOrder_framed.turn (fun _ hf => hf) ht).forall_mem ih

/-- **Every frame is framed**: in every state of the server, whatever was sent, responses,
notifications and keep-alives, is a frame with its length fields right. What overflows is not sent,
and no writer in use leaves its buffer. -/
theorem outgoing_framed {d : Device K} (h : (server K).Reach d) :
    (∀ e ∈ d.log, e.Sends (Framed K)) ∧ DropsOverflow d ∧
      ∀ w w', d.Builds w w' → w.Inside w' :=
  ⟨sends_of_reach h, dropsOverflow d, fun _ _ => inside_builds⟩

namespace Sample

/-- A keep-alive of the peer, with a heartbeat of five seconds. -/
def heartbeatFrame : Bytes := [0x3B, 0, 4, 0, 0, 0, 11, 4, 0, 1, 0, 5]

/-- The client in slot 0 sends it. -/
def beat : Input .default :=
  .service firstSlot 0 ⟨true, .done, true, [.data heartbeatFrame fun _ => 0]⟩

/-- How a heartbeat is handled. -/
def beaten (d : Device .default) : Device .default :=
  ((d.modifyConn firstSlot fun e =>
    { e with rx := heartbeatFrame, lastRxUs := 0 }).handleFrame firstSlot ⟨4, 1, [0, 5]⟩
      (Ptr.ofBytes [] fun _ => 0)).modifyConn firstSlot fun e => { e with rx := [] }

theorem run_beat {d : Device .default} (h : (d.conns firstSlot).inUse = true ∧
    (d.conns firstSlot).handshaking = false ∧ (d.conns firstSlot).tls = false ∧
      (d.conns firstSlot).rx = []) : beat.run d = beaten d :=
  Device.serviceConn_frame 0 (fun _ => 0) .done true h (by decide)
    (by decide : rxHead 2048 heartbeatFrame = .frame 12 ⟨4, 1, [0, 5]⟩)

/-- The client in slot 0 asks for the version of the device. -/
def versionFrame : Bytes :=
  [0x3B, 0, 4, 0, 0, 0, 26, 1, 0, 1, 0, 0, 0, 17, 0, 0, 0, 7, 0, 0, 0, 1, 0, 3, 0, 1, 0]

/-- It comes in one read. -/
def ask : Input .default :=
  .service firstSlot 0 ⟨true, .done, true, [.data versionFrame fun _ => 0]⟩

/-- How it is handled. -/
def asked (d : Device .default) : Device .default :=
  ((d.modifyConn firstSlot fun e =>
    { e with rx := versionFrame, lastRxUs := 0 }).handleFrame firstSlot
      ⟨1, 1, versionFrame.drop 10⟩ (Ptr.ofBytes [] fun _ => 0)).modifyConn firstSlot
        fun e => { e with rx := [] }

theorem run_ask {d : Device .default} (h : (d.conns firstSlot).inUse = true ∧
    (d.conns firstSlot).handshaking = false ∧ (d.conns firstSlot).tls = false ∧
      (d.conns firstSlot).rx = []) : ask.run d = asked d :=
  Device.serviceConn_frame 0 (fun _ => 0) .done true h (by decide)
    (by decide : rxHead 2048 versionFrame = .frame 27 ⟨1, 1, versionFrame.drop 10⟩)

/-- It is answered under the handle of its command. -/
def versionResponse : Bytes := responsePdu 1 [⟨7, .ok, 1, [0, 3]⟩]

/-- Sockets that take every frame whole. -/
def takingNet : Net := ⟨fun _ _ => [.wrote 2048], fun _ => 0⟩

/-- The sample device with this network, a client in slot 0. -/
def takingStart : Device .default := (deviceStart .default config takingNet).get rfl

def taking : Device .default := takingStart.acceptConn [] 0 true

/-- The client asks. -/
def inquired : Device .default := ask.run taking

theorem inquired_eq : inquired = asked taking := run_ask (d := taking) (by decide +kernel)

theorem reach_inquired : (server .default).Reach inquired := by
  have hstart : (server .default).Reach takingStart :=
    .init ⟨config, takingNet, (Option.some_get _).symm⟩
  have hrun : (server .default).Run takingStart [.accept [] 0 true, ask] inquired :=
    .cons trivial (.cons trivial (.nil _))
  exact hstart.run hrun

/-- The response is sent, and framed. -/
theorem framed_version :
    Event.tx 0 versionResponse 22 ∈ inquired.log ∧ Framed .default versionResponse := by
  have hlog : Event.tx 0 versionResponse 22 ∈ inquired.log := by
    rw [inquired_eq]
    decide +kernel
  exact ⟨hlog, (outgoing_framed reach_inquired).1 _ hlog⟩

end Sample

end Aes70
