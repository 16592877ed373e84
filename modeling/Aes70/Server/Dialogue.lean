import Aes70.Router.Overflow
import Aes70.Server.Hearing
import Aes70.Server.Reflect

/-!
# The dialogue of a session

A client need not wait for a response before it sends the next command PDU, and others use the
device in between. What it is answered is nevertheless what it would be answered if each of its PDUs
were executed at one go at some moment, in the order in which they were sent.

* `Device.runPdu` : the commands of a PDU are executed, and this is the response.
* `Elsewhere` : what happens to the device without a command PDU of the connection being executed.
* `Exchange` : command PDUs of a connection and their responses, and between them only what happens
  elsewhere.
* `dialogue` : the server together with the bytes heard and the responses sent in each session.
* `exchange_of_reach` : in every reachable state the responses of a session are those of an exchange
  of the command PDUs among the frames it has heard.
-/

namespace Aes70

variable {K : Kconfig}

/-! ### Commands and responses -/

/-- The type of a command PDU: whether a response is asked for. -/
def Frame.command (f : Frame) : Option MsgType :=
  if f.mtype = MsgType.cmd.code then some .cmd
  else if f.mtype = MsgType.cmdRrq.code then some .cmdRrq
  else none

/-- The command PDUs among some frames. -/
def commandPdus (fs : List Frame) : List Frame := fs.filter fun f => f.command.isSome

/-- The frame is a response. -/
def isResponse (frame : Bytes) : Bool := frame[7]? == some MsgType.rsp.code

/-- The frame that the event hands to the socket of connection `c`. -/
def Event.frame (c : ℕ) : Event → Option Bytes
  | .tx conn frame _ => if conn = c then some frame else none
  | _ => none

/-- The frames handed to the socket of connection `c`. -/
def told (c : ℕ) (es : List Event) : List Bytes := es.filterMap (Event.frame c)

/-- The responses among them. -/
def responses (c : ℕ) (es : List Event) : List Bytes := (told c es).filter isResponse

/-- The commands of a PDU are executed. The response is empty if none is asked for or if it
overflows; `mem` is the memory behind the body. -/
def Device.runPdu (d : Device K) (c : ℕ) (type : MsgType) (f : Frame) (mem : Ptr) :
    Device K × Bytes :=
  routeCommandPdu d c type f.mcount (Ptr.ofBytes f.body mem) f.body.length K.txBufferSize

/-- What is sent of a response. -/
def sent (pdu : Bytes) : List Bytes := if pdu = [] then [] else [pdu]

/-- Something that happens without a command PDU of connection `c` being executed: a step of the
server that is not the turn of `c`, or, in this turn, the handshake, the traffic fields of the entry
of `c` and what is handed to its socket. -/
inductive Elsewhere (c : Fin K.maxConnections) (d : Device K) : Device K → Prop
  | input (inp : Input K) : inp.Legal d → (∀ now slot, inp ≠ .service c now slot) →
      Elsewhere c d (inp.run d)
  | handshake (now : ℤ) (r : HandshakeResult) (answer : Bool) :
      Elsewhere c d (d.tlsDriveHandshake c now r answer).1
  | entry (f : Conn → Conn) : (∀ e, (f e).standing = e.standing) → Elsewhere c d (d.modifyConn c f)
  | send {frame : Bytes} : Framed K frame → Elsewhere c d (d.connSend c frame)

/-- From `d` on, the device executes these command PDUs of connection `c`, one after the other and
each at one go, and sends these responses; what happens in between happens elsewhere. -/
inductive Exchange (c : Fin K.maxConnections) (d : Device K) :
    List Frame → List Bytes → Device K → Prop
  | start : Exchange c d [] [] d
  | others {fs rs d' d''} : Exchange c d fs rs d' → Elsewhere c d' d'' → Exchange c d fs rs d''
  | pdu {fs rs d' f type} (mem : Ptr) : Exchange c d fs rs d' → f.command = some type →
      Exchange c d (fs ++ [f]) (rs ++ sent (d'.runPdu c type f mem).2) (d'.runPdu c type f mem).1

/-- The response is to this PDU: it has its message count, and one response to each of its commands,
in their order. -/
def Frame.AnsweredBy (f : Frame) (pdu : Bytes) : Prop :=
  f.command = some .cmdRrq ∧ ∃ (mem : Ptr) (rs : List Response), pdu = responsePdu f.mcount rs ∧
    rs.map Response.handle = (commands f.mcount.toNat
      (Reader.init (Ptr.ofBytes f.body mem) f.body.length)).map fun q => q.1.handle

section Exchange

variable {c : Fin K.maxConnections} {d d' d'' : Device K} {fs fs' : List Frame}
  {rs rs' : List Bytes}

theorem commandPdus_append (fs fs' : List Frame) :
    commandPdus (fs ++ fs') = commandPdus fs ++ commandPdus fs' := List.filter_append fs fs'

theorem responses_append {c : ℕ} (es es' : List Event) :
    responses c (es ++ es') = responses c es ++ responses c es' := by
  rw [responses, told, List.filterMap_append, List.filter_append]
  rfl

theorem Exchange.trans (h : Exchange c d fs rs d') (h' : Exchange c d' fs' rs' d'') :
    Exchange c d (fs ++ fs') (rs ++ rs') d'' := by
  induction h' with
  | start => rwa [List.append_nil, List.append_nil]
  | others _ helse ih => exact .others ih helse
  | pdu mem _ hf ih =>
    rw [← List.append_assoc, ← List.append_assoc]
    exact .pdu mem ih hf

/-- Only what asks for a response has one. -/
theorem type_of_runPdu {c : ℕ} {type : MsgType} {f : Frame} {mem : Ptr}
    (h : (d.runPdu c type f mem).2 ≠ []) : type = .cmdRrq := by
  cases type with
  | cmdRrq => rfl
  | cmd | rsp | ntf | keepalive => exact absurd rfl h

theorem answeredBy_runPdu {c : ℕ} {type : MsgType} {f : Frame} (mem : Ptr)
    (hf : f.command = some type) (h : (d.runPdu c type f mem).2 ≠ []) :
    f.AnsweredBy (d.runPdu c type f mem).2 := by
  obtain rfl := type_of_runPdu h
  have hpdu := routeCommandPdu_pdu d c f.mcount (Ptr.ofBytes f.body mem) f.body.length
    K.txBufferSize
  refine ⟨hf, mem, _, hpdu.trans (if_pos ?_), ?_⟩
  · by_contra hover
    exact h (hpdu.trans (if_neg hover))
  · rw [List.map_map]
    exact map_handle_answers _ _ _ _

/-- **The responses of an exchange answer its PDUs**, one each and in order; left out are those that
ask for none, or whose response overflows. -/
theorem Exchange.answeredBy (h : Exchange c d fs rs d') :
    ∃ answered, answered.Sublist fs ∧ List.Forall₂ Frame.AnsweredBy answered rs := by
  induction h with
  | start => exact ⟨[], .refl _, .nil⟩
  | others _ _ ih => exact ih
  | @pdu _ _ _ f _ mem _ hf ih =>
    obtain ⟨answered, hsub, hall⟩ := ih
    unfold sent
    split_ifs with hnone
    · exact ⟨answered, hsub.trans (List.sublist_append_left _ _), by rwa [List.append_nil]⟩
    · exact ⟨answered ++ [f], hsub.append (.refl _),
        List.rel_append hall (.cons (answeredBy_runPdu mem hf hnone) .nil)⟩

end Exchange

/-! ### What sends no response -/

/-- The frame is a PDU of one of these types, and its header has room for its size. -/
def PduOf (types : List MsgType) (frame : Bytes) : Prop :=
  ∃ type ∈ types, ∃ count body, frame = outgoingPdu type count body ∧ frame.length < 2 ^ 32

theorem PduOf.ne_nil {types : List MsgType} {f : Bytes} (h : PduOf types f) : f ≠ [] := by
  obtain ⟨type, -, count, body, rfl, -⟩ := h
  exact List.ne_nil_of_length_pos (by rw [length_outgoingPdu]; omega)

/-- The type tells whether a PDU is a response. -/
theorem isResponse_outgoingPdu (type : MsgType) (count : UInt16) (body : Bytes) :
    isResponse (outgoingPdu type count body) = (type == .rsp) := by
  rw [isResponse, type_outgoingPdu]
  cases type <;> rfl

theorem PduOf.quiet_iff {f : Bytes} :
    PduOf [.ntf, .keepalive] f ↔ PduOf [.rsp, .ntf, .keepalive] f ∧ isResponse f = false := by
  constructor
  · rintro ⟨type, htype, count, body, rfl, hlen⟩
    refine ⟨⟨type, List.mem_cons_of_mem _ htype, count, body, rfl, hlen⟩, ?_⟩
    rw [isResponse_outgoingPdu]
    revert htype
    cases type <;> decide
  · rintro ⟨⟨type, htype, count, body, rfl, hlen⟩, hno⟩
    rw [isResponse_outgoingPdu] at hno
    refine ⟨type, ?_, count, body, rfl, hlen⟩
    obtain rfl | hrest := List.mem_cons.1 htype
    · exact absurd hno (by decide)
    · exact hrest

/-- If the event hands a frame to the socket of connection `c`, the frame satisfies `F`. -/
def Event.Tells (c : ℕ) (F : Bytes → Prop) (e : Event) : Prop := ∀ f ∈ e.frame c, F f

/-- Nothing but notifications and keep-alives is handed to the socket of connection `c`. -/
def Silent (c : ℕ) (d d' : Device K) : Prop :=
  Log.Grows (Event.Tells c (PduOf [.ntf, .keepalive])) d.log d'.log

section Silent

variable {c : ℕ} {d d' d'' : Device K}

theorem tells_tx {F : Bytes → Prop} {conn n : ℕ} {frame : Bytes} (h : conn = c → F frame) :
    (Event.tx conn frame n).Tells c F := by
  intro f hf
  change (if conn = c then some frame else none) = some f at hf
  split_ifs at hf with hconn
  obtain rfl := Option.some.inj hf
  exact h hconn

theorem forall_told {F : Bytes → Prop} {es : List Event} (h : ∀ e ∈ es, e.Tells c F) :
    ∀ f ∈ told c es, F f := by
  intro f hf
  obtain ⟨e, he, hframe⟩ := List.mem_filterMap.1 hf
  exact h e he f hframe

theorem responses_of_silent {es : List Event}
    (h : ∀ e ∈ es, e.Tells c (PduOf [.ntf, .keepalive])) : responses c es = [] := by
  refine List.filter_eq_nil_iff.2 fun f hf => ?_
  rw [(PduOf.quiet_iff.1 (forall_told h f hf)).2]
  exact Bool.false_ne_true

theorem silent_emit {e : Event} (h : e.isQuiet = true) (d : Device K) : Silent c d (d.emit e) := by
  refine Log.Grows.concat ?_ d.log
  intro f hf
  cases e with
  | tx => cases h
  | _ => cases hf

theorem silent_notify (d : Device K) (i : ObjRef) (level index : UInt16) :
    Silent c d (d.notify i level index) := by
  have htx := K.txBufferSize_range.2
  refine Device.grows_notify (fun k f n hf => tells_tx fun _ => ?_) fun _ h => by cases h
  obtain ⟨hform, hlen, -⟩ := notificationFrame_eq hf
  exact ⟨.ntf, by simp, _, _, hform, by omega⟩

/-- Commands send notifications, if anything. -/
theorem routeOrder_silent : RouteOrder (Silent (K := K) c) where
  refl _ := .refl _
  trans := .trans
  modifyObj d _ _ := .refl d.log
  notify := silent_notify
  controlChanged d i := by
    unfold Device.controlChanged
    split_ifs
    · exact silent_emit rfl d
    · exact .refl _
  store d _ _ _ _ _ _ := .refl d.log
  record d _ _ _ := silent_emit rfl d
  active d _ := .refl d.log

theorem silent_closeConn (d : Device K) (k : Fin K.maxConnections) :
    Silent c d (d.closeConn k) := by
  unfold Device.closeConn
  split_ifs
  · exact .refl _
  · exact silent_emit rfl _

/-- What is done for other connections sends none to this one. -/
theorem slotOrder_silent {k : Fin K.maxConnections} (hk : k.val ≠ c) :
    SlotOrder k (Silent (K := K) c) where
  refl _ := .refl _
  trans := .trans
  command d conn cmd params _ := routeOrder_silent.answer _ conn cmd params d
  send d _ _ := Device.grows_connSend (fun _ => tells_tx fun h => absurd h hk) d
  active d _ := .refl d.log
  modifyConn d _ := .refl d.log
  closeConn d := silent_closeConn d k
  authorized d f _ := silent_emit rfl (d.modifyConn k f)

theorem silent_sendKeepalive (d : Device K) (k : Fin K.maxConnections) :
    Silent c d (d.sendKeepalive k) := by
  obtain ⟨body, hform, hlen⟩ := keepaliveFrame_eq (d.conns k)
  refine Device.grows_connSend (fun n => tells_tx fun _ => ?_) d
  refine ⟨.keepalive, by simp, 1, body, hform, ?_⟩
  rw [hform, length_outgoingPdu]
  omega

theorem silent_serviceKeepalive (now : ℤ) (d : Device K) : Silent c d (d.serviceKeepalive now) :=
  List.foldlRecOn (motive := Silent c d) _ _ (.refl d.log) fun d' hd k _ => hd.trans (by
    unfold Device.keepaliveConn
    dsimp only
    split_ifs
    · exact .refl d'.log
    · exact silent_closeConn d' k
    · exact silent_sendKeepalive d' k
    · exact .refl d'.log)

/-- **What a step sends**, other than the turn of the connection. -/
theorem silent_input {inp : Input K} (h : ∀ k now slot, inp = .service k now slot → k.val ≠ c) :
    Silent c d (inp.run d) := by
  have hsame {d' : Device K} (hlog : d'.log = d.log) : Silent c d d' := by
    rw [Silent, hlog]
  cases inp with
  | create call parent role =>
    obtain ⟨objects, next, he⟩ := d.create_eq call parent role
    exact hsame (by rw [Input.run, he])
  | setLabel | setSecured | setTag => exact hsame rfl
  | matrixSetMember i x y member =>
    obtain ⟨objects, he⟩ := d.matrixSetMember_eq i x y member
    exact hsame (by rw [Input.run, he])
  | post i req =>
    refine hsame ?_
    change (d.postSet req).log = d.log
    unfold Device.postSet
    split_ifs <;> rfl
  | drain =>
    exact List.foldlRecOn (motive := Silent c d) _ _ (.refl d.log)
      fun d' hd req _ => hd.trans (routeOrder_silent.applySet d' req)
  | accept addr port answer =>
    change Silent c d (d.acceptConn addr port answer)
    unfold Device.acceptConn
    split
    · exact .refl d.log
    · exact .trans (silent_emit rfl (d.modifyConn _ _)) (silent_emit rfl _)
  | acceptTls addr port sessionOk =>
    change Silent c d (d.acceptTlsConn addr port sessionOk)
    unfold Device.acceptTlsConn
    split
    · exact .refl d.log
    · split_ifs
      · exact .refl d.log
      · exact silent_emit rfl (d.modifyConn _ _)
  | service k now slot => exact (slotOrder_silent (h k now slot rfl)).serviceConn now slot d
  | keepalive now => exact silent_serviceKeepalive now d

end Silent

/-! ### Sessions -/

/-- From `d` to `d'` the frames of connection `c` are dealt with, and what is recorded is an
exchange of the command PDUs among them. -/
structure Deals (c : Fin K.maxConnections) (d : Device K) (fs : List Frame) (es : List Event)
    (d' : Device K) : Prop where
  log : d'.log = d.log ++ es
  exchange : Exchange c d (commandPdus fs) (responses c es) d'
  pdus : ∀ e ∈ es, e.Tells c (PduOf [.rsp, .ntf, .keepalive])

/-- The same, whatever is recorded. -/
def Talks (c : Fin K.maxConnections) (d : Device K) (fs : List Frame) (d' : Device K) : Prop :=
  ∃ es, Deals c d fs es d'

section Talks

variable {d d' d'' : Device K} {c : Fin K.maxConnections} {fs fs' : List Frame} {now : ℤ}
  {heard : Bytes}

theorem tells_all {e : Event} (h : e.Tells c (PduOf [.ntf, .keepalive])) :
    e.Tells c (PduOf [.rsp, .ntf, .keepalive]) := fun f hf => (PduOf.quiet_iff.1 (h f hf)).1

theorem Talks.of_silent (h : Silent c d d') (helse : Elsewhere c d d') : Talks c d [] d' := by
  obtain ⟨es, hlog, hes⟩ := h
  refine ⟨es, hlog, ?_, fun e he => tells_all (hes e he)⟩
  rw [responses_of_silent hes]
  exact .others .start helse

theorem Deals.trans {es es' : List Event} (h : Deals c d fs es d')
    (h' : Deals c d' fs' es' d'') : Deals c d (fs ++ fs') (es ++ es') d'' where
  log := by rw [h'.log, h.log, List.append_assoc]
  exchange := by
    rw [commandPdus_append, responses_append]
    exact h.exchange.trans h'.exchange
  pdus e he := (List.mem_append.1 he).elim (h.pdus e) (h'.pdus e)

theorem Talks.trans (h : Talks c d fs d') (h' : Talks c d' fs' d'') :
    Talks c d (fs ++ fs') d'' := by
  obtain ⟨es, hes⟩ := h
  obtain ⟨es', hes'⟩ := h'
  exact ⟨es ++ es', hes.trans hes'⟩

theorem Talks.skip {f : Frame} (hf : f.command = none) (h : Talks c d [] d') :
    Talks c d [f] d' := by
  obtain ⟨es, hlog, hex, hpdus⟩ := h
  refine ⟨es, hlog, ?_, hpdus⟩
  rwa [commandPdus, List.filter_cons_of_neg (by simp [hf])]

/-- Nothing is heard, and nothing said. -/
theorem talks_refl (d : Device K) : Talks c d [] d :=
  ⟨[], (List.append_nil _).symm, .start, fun _ he => absurd he List.not_mem_nil⟩

/-- Traffic fields of the entry are stored. -/
theorem talks_modifyConn (d : Device K) {f : Conn → Conn} (hf : ∀ e, (f e).standing = e.standing) :
    Talks c d [] (d.modifyConn c f) := .of_silent (.refl d.log) (.entry f hf)

/-- The transmission of a response. -/
theorem response_of_runPdu {f : Frame} {n : ℕ} (mem : Ptr) (hf : f.command = some .cmdRrq)
    (h : (d.runPdu c .cmdRrq f mem).2 ≠ []) :
    PduOf [.rsp, .ntf, .keepalive] (d.runPdu c .cmdRrq f mem).2 ∧
      responses c [.tx c (d.runPdu c .cmdRrq f mem).2 n] = sent (d.runPdu c .cmdRrq f mem).2 := by
  have hlen : (d.runPdu c .cmdRrq f mem).2.length < 2 ^ 32 := by
    have hframed : Framed K (d.runPdu c .cmdRrq f mem).2 := framed_response c d _ _ _ h
    have htx := K.txBufferSize_range.2
    obtain ⟨cap, hcap, w, hinside, -, hbuf⟩ := hframed.built
    obtain ⟨hoff, hsame⟩ := hinside.off_le (Writer.off_init cap)
    rw [← hbuf]
    have hsize : cap ≤ 16384 := by
      simp only [List.mem_cons, List.not_mem_nil, or_false, ocp1HeaderLen] at hcap
      omega
    rw [Writer.off, hsame] at hoff
    exact lt_of_le_of_lt (hoff.trans hsize) (by decide)
  obtain ⟨-, _, rs, hform, -⟩ := answeredBy_runPdu mem hf h
  have hpdu : (d.runPdu c .cmdRrq f mem).2 =
      outgoingPdu .rsp f.mcount (rs.flatMap Response.encode) := hform
  refine ⟨⟨.rsp, by simp, _, _, hpdu, hlen⟩, ?_⟩
  have hrsp : isResponse (d.runPdu c .cmdRrq f mem).2 = true := by
    rw [hpdu, isResponse_outgoingPdu]
    rfl
  rw [sent, if_neg h]
  simp [responses, told, Event.frame, hrsp]

/-- **A command PDU** is executed, and its response is sent. -/
theorem talks_runPdu {f : Frame} {type : MsgType} (mem : Ptr) (hf : f.command = some type)
    (huse : (d.conns c).inUse = true) :
    Talks c d [f] (if (d.runPdu c type f mem).2 = [] then (d.runPdu c type f mem).1
      else (d.runPdu c type f mem).1.connSend c (d.runPdu c type f mem).2) := by
  obtain ⟨es, hlog, hes⟩ : Silent c d (d.runPdu c type f mem).1 :=
    routeOrder_silent.route d c _ _ _ _
  have hone : commandPdus [f] = [f] := List.filter_cons_of_pos (by simp [hf])
  have hpdu : Exchange c d [f] (sent (d.runPdu c type f mem).2) (d.runPdu c type f mem).1 :=
    .pdu mem .start hf
  split_ifs with hnone
  · refine ⟨es, hlog, ?_, fun e he => tells_all (hes e he)⟩
    rw [hone, responses_of_silent hes]
    rwa [sent, if_pos hnone] at hpdu
  · obtain rfl := type_of_runPdu hnone
    have hframed : Framed K (d.runPdu c .cmdRrq f mem).2 := framed_response c d _ _ _ hnone
    have hopen : ((d.runPdu c .cmdRrq f mem).1.conns c).inUse = true := by
      have hsame := routeOrder_sameEntries.route d c .cmdRrq f.mcount (Ptr.ofBytes f.body mem)
        f.body.length c
      exact (congrArg Conn.inUse hsame).trans huse
    obtain ⟨n, hsent⟩ := log_connSend (d := (d.runPdu c .cmdRrq f mem).1) (c := c)
      ⟨_, dif_pos c.isLt, hopen⟩ (d.runPdu c .cmdRrq f mem).2
    obtain ⟨hpduOf, hresponse⟩ := response_of_runPdu (n := n) mem hf hnone
    refine ⟨es ++ [.tx c (d.runPdu c .cmdRrq f mem).2 n], ?_, ?_, fun e he => ?_⟩
    · rw [hsent, hlog, List.append_assoc]
    · rw [hone, responses_append, responses_of_silent hes, List.nil_append, hresponse]
      exact hpdu.others (.send hframed)
    · obtain he | he := List.mem_append.1 he
      · exact tells_all (hes e he)
      · rw [List.mem_singleton.1 he]
        exact tells_tx fun _ => hpduOf

/-- **A frame** is dealt with. -/
theorem talks_handleFrame (f : Frame) (mem : Ptr) (huse : (d.conns c).inUse = true) :
    Talks c d [f] (d.handleFrame c f mem) := by
  unfold Device.handleFrame
  by_cases hcmd : f.mtype = MsgType.cmd.code
  · rw [if_pos hcmd]
    exact talks_runPdu mem (if_pos hcmd) huse
  by_cases hrrq : f.mtype = MsgType.cmdRrq.code
  · rw [if_neg hcmd, if_pos hrrq]
    exact talks_runPdu mem ((if_neg hcmd).trans (if_pos hrrq)) huse
  rw [if_neg hcmd, if_neg hrrq]
  have hno : f.command = none := (if_neg hcmd).trans (if_neg hrrq)
  split_ifs
  · exact .skip hno ((talks_modifyConn d (standing_keepaliveReceived f.body)).trans
      (.of_silent (silent_sendKeepalive _ c) (.send (framed_keepalive K _))))
  · exact .skip hno (talks_refl d)

theorem inUse_hear (e : Conn) (f : Frame) : (e.hear f).inUse = e.inUse := by
  unfold Conn.hear Device.keepaliveReceived
  split_ifs <;> rfl

theorem inUse_handleFrame (f : Frame) (mem : Ptr) :
    ((d.handleFrame c f mem).conns c).inUse = (d.conns c).inUse := by
  have hsession := conns_handleFrame c f mem d c
  rw [if_pos rfl] at hsession
  have huse := congrArg Conn.inUse hsession
  exact huse.trans (inUse_hear _ f)

/-- **The loop over the frames** deals with those of the parse. -/
theorem talks_rxLoop (size : ℕ) (junk : Ptr) (bs : Bytes) (huse : (d.conns c).inUse = true) :
    Talks c d ((rxFraming size).parse bs).1 (rxLoop size (Device.handleFrame c) junk bs d).1 := by
  induction bs using (rxFraming size).induction generalizing d with
  | wait bs h =>
    rw [rxLoop_of_wait h, Framing.parse_of_wait h]
    exact talks_refl d
  | drop bs h =>
    rw [rxLoop_of_drop h, Framing.parse_of_drop h]
    exact talks_refl d
  | frame bs n f h ih =>
    rw [rxLoop_of_frame h, Framing.parse_of_frame h]
    exact (talks_handleFrame f _ huse).trans (ih ((inUse_handleFrame f _).trans huse))

/-- What the parse of a stream finds in its continuation. -/
def Completes (size : ℕ) (heard more : Bytes) (fs : List Frame) : Prop :=
  ((rxFraming size).parse (heard ++ more)).1 = ((rxFraming size).parse heard).1 ++ fs

theorem completes_nothing (size : ℕ) (heard : Bytes) : Completes size heard [] [] := by
  rw [Completes, List.append_nil, List.append_nil]

theorem Completes.append {size : ℕ} {bs bs' : Bytes} (h : Completes size heard bs fs)
    (h' : Completes size (heard ++ bs) bs' fs') : Completes size heard (bs ++ bs') (fs ++ fs') := by
  unfold Completes at *
  rw [← List.append_assoc, h', h, List.append_assoc]

/-- Nothing is read. -/
theorem talks_nothing (heard : Bytes) (d : Device K) :
    ∃ fs, Completes K.rxBufferSize heard [] fs ∧ Talks c d fs d :=
  ⟨[], completes_nothing _ heard, talks_refl d⟩

/-- **A read call** deals with the frames that it completes. -/
theorem talks_receive (now : ℤ) (bs : Bytes) (junk : Ptr)
    (h : (d.conns c).Hears K.rxBufferSize heard) (huse : (d.conns c).inUse = true) :
    ∃ fs, Completes K.rxBufferSize heard (d.took c bs) fs ∧
      Talks c d fs (d.receive c now bs junk).1 := by
  by_cases hne : d.took c bs = []
  · rw [hne, receive_of_nothing hne]
    exact talks_nothing heard d
  have hparse := Framing.parse_append (F := rxFraming K.rxBufferSize) heard (d.took c bs)
  rw [h.rest, if_pos rfl] at hparse
  refine ⟨_, congrArg Prod.fst hparse, ?_⟩
  rw [receive_eq_rxLoop hne]
  have htook : Talks c d [] (d.modifyConn c fun e =>
      { e with rx := e.rx ++ d.took c bs, lastRxUs := now }) := talks_modifyConn d fun _ => rfl
  have hloop := htook.trans (talks_rxLoop K.rxBufferSize junk ((d.conns c).rx ++ d.took c bs)
    (by simpa [Device.modifyConn] using huse))
  rw [List.nil_append] at hloop
  have hend := hloop.trans (talks_modifyConn _
    (f := fun e => { e with
      rx := ((rxFraming K.rxBufferSize).parse ((d.conns c).rx ++ d.took c bs)).2.1 }) fun _ => rfl)
  rwa [List.append_nil] at hend

/-- A connection that a read call keeps is still in use. -/
theorem inUse_receive (bs : Bytes) (junk : Ptr) :
    ((d.receive c now bs junk).1.conns c).inUse = (d.conns c).inUse := by
  by_cases hne : d.took c bs = []
  · rw [receive_of_nothing hne]
  rw [receive_eq_rxLoop hne]
  have hloop := congrArg Conn.inUse (conns_rxLoop K.rxBufferSize c junk
    ((d.conns c).rx ++ d.took c bs)
    (d.modifyConn c fun e => { e with rx := e.rx ++ d.took c bs, lastRxUs := now }) c)
  rw [if_pos rfl] at hloop
  have hfold (e : Conn) (fs : List Frame) : (fs.foldl Conn.hear e).inUse = e.inUse :=
    List.foldlRecOn (motive := fun e' => e'.inUse = e.inUse) _ _ rfl fun e' he f _ =>
      (inUse_hear e' f).trans he
  rw [hfold] at hloop
  simpa [Device.modifyConn, Conn.session] using hloop

/-- **The TLS loop** deals with the frames that its read calls complete. -/
theorem talks_tlsServiceRx (rs : List ReadResult) (h : (d.conns c).Hears K.rxBufferSize heard)
    (huse : (d.conns c).inUse = true) (hkeep : (Device.tlsServiceRx c now rs d).2 = true) :
    ∃ fs, Completes K.rxBufferSize heard (Device.tlsHeard c now rs d) fs ∧
      Talks c d fs (Device.tlsServiceRx c now rs d).1 := by
  induction rs generalizing d heard with
  | nil => exact talks_nothing heard d
  | cons r rs ih =>
    cases r with
    | wouldBlock => exact talks_nothing heard d
    | data bs junk =>
      unfold Device.tlsServiceRx at hkeep ⊢
      unfold Device.tlsHeard
      dsimp only at hkeep ⊢
      by_cases hgood : (d.receive c now bs junk).2 = true
      · obtain ⟨fs, hfs, hone⟩ := talks_receive now bs junk h huse
        simp only [hgood, Bool.not_true, Bool.false_eq_true, if_false] at hkeep ⊢
        by_cases hroom : (((d.receive c now bs junk).1.conns c).inUse &&
            decide (((d.receive c now bs junk).1.conns c).rx.length < K.rxBufferSize)) = true
        · rw [if_pos hroom] at hkeep ⊢
          rw [if_pos hroom]
          have huse' : ((d.receive c now bs junk).1.conns c).inUse = true :=
            (inUse_receive bs junk).trans huse
          obtain ⟨fs', hfs', hrest⟩ := ih (hears_receive h hgood) huse' hkeep
          exact ⟨fs ++ fs', hfs.append hfs', hone.trans hrest⟩
        · rw [if_neg hroom, if_neg hroom, List.append_nil]
          exact ⟨fs, hfs, hone⟩
      · rw [if_pos (by simp [hgood])] at hkeep
        cases hkeep

/-- The handshake is no part of the dialogue. -/
theorem talks_tlsDriveHandshake (r : HandshakeResult) (answer : Bool) :
    Talks c d [] (d.tlsDriveHandshake c now r answer).1 := by
  have hsilent : Silent c d (d.tlsDriveHandshake c now r answer).1 := by
    unfold Device.tlsDriveHandshake
    split
    · exact .refl d.log
    · cases r with
      | wouldBlock | failed => exact .refl d.log
      | done => exact silent_emit rfl (d.modifyConn c _)
  exact .of_silent hsilent (.handshake now r answer)

/-- **The turn of a connection**, if it is in use after it. -/
theorem talks_serviceConn (inp : SlotInput) (h : (d.conns c).Hears K.rxBufferSize heard)
    (hopen : (d.conns c).inUse = true) (huse : ((d.serviceConn c now inp).conns c).inUse = true) :
    ∃ fs, Completes K.rxBufferSize heard (d.heard c now inp) fs ∧
      Talks c d fs (d.serviceConn c now inp) := by
  unfold Device.serviceConn at huse ⊢
  unfold Device.heard
  have hidle : ¬(!(d.conns c).inUse) = true := by simp [hopen]
  rw [if_neg hidle] at huse ⊢
  rw [if_neg hidle]
  by_cases hshake : (d.conns c).handshaking = true
  · rw [if_pos hshake] at huse ⊢
    rw [if_pos hshake, (closeUnless_of_inUse huse).2]
    exact ⟨[], completes_nothing _ heard, talks_tlsDriveHandshake _ _⟩
  rw [if_neg hshake] at huse ⊢
  rw [if_neg hshake]
  by_cases hread : inp.readable = true
  · simp only [hread, if_true] at huse ⊢
    split_ifs at huse ⊢
    · obtain ⟨hkeep, heq⟩ := closeUnless_of_inUse huse
      rw [heq]
      exact talks_tlsServiceRx inp.reads h hopen hkeep
    · cases hreads : inp.reads with
      | nil =>
        simp only [hreads] at huse
        rw [Device.inUse_closeConn] at huse
        cases huse
      | cons r rs =>
        cases r with
        | wouldBlock =>
          simp only [hreads] at huse
          rw [Device.inUse_closeConn] at huse
          cases huse
        | data bs junk =>
          simp only [hreads] at huse ⊢
          obtain ⟨-, heq⟩ := closeUnless_of_inUse huse
          rw [heq]
          exact talks_receive now bs junk h hopen
  · simp only [hread, Bool.false_eq_true, if_false, ite_self]
    exact talks_nothing heard d

end Talks

/-! ### The server -/

/-- The device, and for each slot the bytes heard and the events recorded in the session that has
it. -/
structure Dialogue (K : Kconfig) extends Hearing K where
  record : Fin K.maxConnections → List Event

/-- A step, and what is heard and recorded in it. A session begins with nothing. -/
def Dialogue.step (s : Dialogue K) (inp : Input K) : Dialogue K where
  toHearing := s.toHearing.step inp
  record c := if (s.dev.conns c).inUse = true ∧ ((inp.run s.dev).conns c).inUse = true
    then s.record c ++ (inp.run s.dev).log.drop s.dev.log.length else []

/-- The server, with the bytes and the events of each session. -/
def dialogue (K : Kconfig) : Machine (Dialogue K) (Input K) where
  init s := (hearing K).init s.toHearing ∧ ∀ c, s.record c = []
  ok s inp := inp.Legal s.dev
  step s inp := s.step inp

/-- What was recorded in a session is an exchange of the command PDUs among what was heard. -/
def Dialogue.Converses (s : Dialogue K) (c : Fin K.maxConnections) : Prop :=
  ∃ d₀, (server K).Reach d₀ ∧
    Deals c d₀ ((rxFraming K.rxBufferSize).parse (s.heard c)).1 (s.record c) s.dev

/-- Every session in use has heard its bytes, and has been answered. -/
structure Dialogue.Right (s : Dialogue K) : Prop where
  reach : (server K).Reach s.dev
  hears : s.toHearing.Right
  converses : ∀ c, (s.dev.conns c).inUse = true → s.Converses c

section Server

variable {s : Dialogue K} {inp : Input K} {c : Fin K.maxConnections}

/-- What is dealt with in a step prolongs the exchange. -/
theorem Dialogue.Converses.step {fs : List Frame} (h : s.Converses c)
    (hopen : (s.dev.conns c).inUse = true) (huse : ((inp.run s.dev).conns c).inUse = true)
    (hfs : Completes K.rxBufferSize (s.heard c) (inp.heard s.dev c) fs)
    (htalks : Talks c s.dev fs (inp.run s.dev)) : (s.step inp).Converses c := by
  obtain ⟨d₀, hreach, hex⟩ := h
  obtain ⟨es, hnew⟩ := htalks
  have hheard : (s.step inp).heard c = s.heard c ++ inp.heard s.dev c := if_pos ⟨hopen, huse⟩
  have hrecord : (s.step inp).record c = s.record c ++ es := by
    change (if _ then _ else _) = _
    rw [if_pos ⟨hopen, huse⟩, hnew.log, List.drop_left]
  refine ⟨d₀, hreach, ?_⟩
  rw [hheard, hrecord, hfs]
  exact hex.trans hnew

/-- A session that begins. -/
theorem Dialogue.Converses.begin (h : (server K).Reach s.dev) (hheard : s.heard c = [])
    (hrecord : s.record c = []) : s.Converses c := by
  have hwait : rxHead K.rxBufferSize [] = .wait := rxHead_of_short (by decide)
  have hshort : (rxFraming K.rxBufferSize).parse [] = ([], [], true) := Framing.parse_of_wait hwait
  refine ⟨s.dev, h, ?_⟩
  rw [hheard, hrecord, hshort]
  exact ⟨(List.append_nil _).symm, .start, by simp⟩

theorem dialogue_step (h : s.Right) (hok : inp.Legal s.dev) : (s.step inp).Right where
  reach := h.reach.step hok
  hears := right_step h.hears inp
  converses := by
    intro c huse
    change ((inp.run s.dev).conns c).inUse = true at huse
    by_cases hopen : (s.dev.conns c).inUse = true
    · by_cases hturn : ∃ now slot, inp = .service c now slot
      · obtain ⟨now, slot, rfl⟩ := hturn
        obtain ⟨fs, hfs, htalks⟩ := talks_serviceConn slot (h.hears c hopen) hopen huse
        refine (h.converses c hopen).step hopen huse ?_ htalks
        rwa [Input.heard, if_pos rfl]
      · have hother : ∀ k now slot, inp = .service k now slot → k ≠ c := by
          rintro k now slot rfl rfl
          exact hturn ⟨now, slot, rfl⟩
        have hnothing : inp.heard s.dev c = [] := by
          cases inp with
          | service k now slot => exact if_neg (hother k now slot rfl)
          | _ => rfl
        have htalks : Talks c s.dev [] (inp.run s.dev) := .of_silent (silent_input
          fun k now slot he hk => hother k now slot he (Fin.ext hk))
          (.input inp hok fun now slot he => hturn ⟨now, slot, he⟩)
        refine (h.converses c hopen).step hopen huse ?_ htalks
        rw [hnothing]
        exact completes_nothing _ _
    · have hnew : ¬((s.dev.conns c).inUse = true ∧ ((inp.run s.dev).conns c).inUse = true) :=
        fun hboth => hopen hboth.1
      exact .begin (h.reach.step hok) (if_neg hnew) (if_neg hnew)

/-- **Every session of a reachable state** is right. -/
theorem right_of_reach (h : (dialogue K).Reach s) : s.Right := by
  refine h.invariant (fun s hs => ?_) fun s inp _ hs hok => dialogue_step hs hok
  obtain ⟨⟨hinit, -⟩, -⟩ := hs
  have hfree : ∀ c, (s.dev.conns c).inUse ≠ true := by
    obtain ⟨cfg, net, hstart⟩ := hinit
    obtain ⟨e, he⟩ := start_eq hstart
    intro c huse
    rw [he] at huse
    cases huse
  exact ⟨.init hinit, fun c huse => absurd huse (hfree c), fun c huse => absurd huse (hfree c)⟩

/-- **The dialogue of a session is an exchange.** Whatever other clients and the application do in
between, and however the bytes of a client are cut: since its session began, the command PDUs among
the frames it has sent were executed in their order, each once and at one go, and the responses
handed to its socket are those to these PDUs, in order, each once. -/
theorem exchange_of_reach (h : (dialogue K).Reach s) (huse : (s.dev.conns c).inUse = true) :
    ∃ d₀ fs, (server K).Reach d₀ ∧ s.dev.log = d₀.log ++ s.record c ∧
      RefParse K.rxBufferSize (s.heard c) fs (s.dev.conns c).rx true ∧
      Exchange c d₀ (commandPdus fs) (responses c (s.record c)) s.dev ∧
      ∃ answered, answered.Sublist (commandPdus fs) ∧
        List.Forall₂ Frame.AnsweredBy answered (responses c (s.record c)) := by
  have hright := right_of_reach h
  obtain ⟨d₀, hreach, hex⟩ := hright.converses c huse
  have hparse := refParse_parse K.rxBufferSize (s.heard c)
  rw [(hright.hears c huse).rest] at hparse
  exact ⟨d₀, _, hreach, hex.log, hparse, hex.exchange, hex.exchange.answeredBy⟩

end Server

namespace Sample

/-- The client asks. -/
def conversing : Dialogue .default :=
  ((⟨⟨takingStart, fun _ => []⟩, fun _ => []⟩ : Dialogue .default).step
    (.accept [] 0 true)).step ask

theorem reach_conversing : (dialogue .default).Reach conversing := by
  have hinit : (server .default).init takingStart := ⟨config, takingNet, (Option.some_get _).symm⟩
  have hstart : (dialogue .default).Reach ⟨⟨takingStart, fun _ => []⟩, fun _ => []⟩ :=
    .init ⟨⟨hinit, fun _ => rfl⟩, fun _ => rfl⟩
  have hrun : (dialogue .default).Run ⟨⟨takingStart, fun _ => []⟩, fun _ => []⟩
      [.accept [] 0 true, ask] conversing := .cons trivial (.cons trivial (.nil _))
  exact hstart.run hrun

theorem dev_conversing : conversing.dev = asked taking := run_ask (d := taking) (by decide +kernel)

theorem inUse_conversing : (taking.conns firstSlot).inUse = true ∧
    ((ask.run taking).conns firstSlot).inUse = true := by
  have hdev : ask.run taking = asked taking := dev_conversing
  rw [hdev]
  decide +kernel

theorem heard_conversing : conversing.heard firstSlot = versionFrame := by
  change (if (taking.conns firstSlot).inUse = true ∧
    ((ask.run taking).conns firstSlot).inUse = true then _ else _) = _
  rw [if_pos inUse_conversing]
  decide +kernel

theorem record_conversing : conversing.record firstSlot =
    (asked taking).log.drop taking.log.length := by
  change (if (taking.conns firstSlot).inUse = true ∧
    ((ask.run taking).conns firstSlot).inUse = true then
      ([] : List Event) ++ conversing.dev.log.drop taking.log.length else _) = _
  rw [if_pos inUse_conversing, List.nil_append, dev_conversing]

theorem exchange_version : ∃ d₀,
    Exchange firstSlot d₀ [⟨1, 1, versionFrame.drop 10⟩] [versionResponse] conversing.dev := by
  have hsaid : responses firstSlot (conversing.record firstSlot) = [versionResponse] := by
    rw [record_conversing]
    decide +kernel
  have hone : (rxFraming 2048).parse versionFrame = ([⟨1, 1, versionFrame.drop 10⟩], [], true) := by
    rw [Framing.parse_of_frame
      (by decide : rxHead 2048 versionFrame = .frame 27 ⟨1, 1, versionFrame.drop 10⟩),
      Framing.parse_of_wait (by decide : rxHead 2048 (versionFrame.drop 27) = .wait)]
    rfl
  obtain ⟨d₀, fs, -, -, hparse, hex, -⟩ := exchange_of_reach reach_conversing inUse_conversing.2
  rw [heard_conversing] at hparse
  obtain rfl := congrArg Prod.fst (hparse.parse_eq.symm.trans hone)
  rw [hsaid] at hex
  exact ⟨d₀, hex⟩

end Sample

end Aes70
