import Aes70.Server.Outgoing

/-!
# What a session has heard

Of the state of a session, the receive buffer and the heartbeat are made of the bytes its peer has
sent, and of nothing else: not of how they were cut into reads, and not of what other sessions or
the application do in between.

* `Frame.heartbeat`, `negotiated` : the heartbeat that a frame asks for, and the last of some
  frames.
* `Device.heard` : the bytes that the server task takes from a connection in its turn.
* `hearing` : the server together with the bytes of each session.
* `hearing_session` : in every reachable state, buffer and heartbeat are those of the reference
  parse of the bytes heard.
-/

namespace Aes70

variable {K : Kconfig}

/-! ### Heartbeats -/

/-- The heartbeat that a frame asks for, in milliseconds, with the width it is written in. -/
def Frame.heartbeat (f : Frame) : Option (UInt32 × UInt8) :=
  if f.mtype = MsgType.keepalive.code then
    if f.body.length = 2 then some ((rd16 f.body).toUInt32 * 1000, 2)
    else if 4 ≤ f.body.length then some (rd32 (f.body.take 4), 4)
    else none
  else none

/-- The heartbeat that the last of the frames to ask for one has asked for; no heartbeat if none
did. -/
def negotiated (fs : List Frame) : UInt32 × UInt8 :=
  (fs.filterMap Frame.heartbeat).getLast?.getD (0, 0)

/-- The heartbeat of a connection. -/
def Conn.heartbeat (e : Conn) : UInt32 × UInt8 := (e.heartbeatMs, e.kaWidth)

theorem negotiated_append (fs fs' : List Frame) : negotiated (fs ++ fs') =
    (fs'.filterMap Frame.heartbeat).getLast?.getD (negotiated fs) := by
  unfold negotiated
  rw [List.filterMap_append, List.getLast?_append]
  cases (fs'.filterMap Frame.heartbeat).getLast? <;> rfl

/-- What a frame makes of the entry of its connection. -/
def Conn.hear (e : Conn) (f : Frame) : Conn :=
  if f.mtype = MsgType.keepalive.code then Device.keepaliveReceived f.body e else e

theorem heartbeat_hear (e : Conn) (f : Frame) :
    (e.hear f).heartbeat = f.heartbeat.getD e.heartbeat := by
  unfold Conn.hear Frame.heartbeat Device.keepaliveReceived
  split_ifs <;> rfl

theorem session_hear (e : Conn) (f : Frame) : (e.hear f).session = e.session.hear f := by
  unfold Conn.hear Device.keepaliveReceived
  split_ifs <;> rfl

/-! ### Connection entries -/

/-- The connection entries are the same, up to the times of transmission. -/
def SameEntries (d d' : Device K) : Prop := ∀ k, (d'.conns k).session = (d.conns k).session

section Entries

variable {d d' d'' : Device K} {c k : Fin K.maxConnections}

theorem SameEntries.of_core (h : d'.core = d.core) : SameEntries d d' :=
  congrFun (congrArg Device.conns h)

theorem SameEntries.trans (h : SameEntries d d') (h' : SameEntries d' d'') : SameEntries d d'' :=
  fun k => (h' k).trans (h k)

/-- Commands leave the connection entries alone. -/
theorem routeOrder_sameEntries : RouteOrder (SameEntries (K := K)) where
  refl _ _ := rfl
  trans := .trans
  modifyObj _ _ _ _ := rfl
  notify d i level index := .of_core (Device.core_notify d i level index)
  controlChanged d i := .of_core (Device.core_controlChanged d i)
  store _ _ _ _ _ _ _ _ := rfl
  record d _ _ _ := .of_core (Device.core_emit d _)
  active _ _ _ := rfl

/-- **A frame** concerns the entry of its own connection, and that as a heartbeat only. -/
theorem conns_handleFrame (c : Fin K.maxConnections) (f : Frame) (mem : Ptr) (d : Device K)
    (k : Fin K.maxConnections) : ((d.handleFrame c f mem).conns k).session =
      if k = c then (d.conns c).session.hear f else (d.conns k).session := by
  have hsend (e : Device K) (frame : Bytes) : SameEntries e (e.connSend c frame) :=
    .of_core (Device.core_connSend e c frame)
  have hcommand (type : MsgType) (hne : f.mtype ≠ MsgType.keepalive.code) (r : Device K × Bytes)
      (hr : r = routeCommandPdu d c type f.mcount (Ptr.ofBytes f.body mem) f.body.length
        K.txBufferSize) :
      (((if r.2 = [] then r.1 else r.1.connSend c r.2).conns k).session) =
        if k = c then (d.conns c).session.hear f else (d.conns k).session := by
    have hroute : SameEntries d r.1 := hr ▸ routeOrder_sameEntries.route d c type _ _ _
    have hall : SameEntries d (if r.2 = [] then r.1 else r.1.connSend c r.2) := by
      split_ifs
      · exact hroute
      · exact hroute.trans (hsend _ _)
    rw [hall k, Conn.hear, if_neg hne]
    split_ifs with hk
    · rw [hk]
    · rfl
  unfold Device.handleFrame
  by_cases hcmd : f.mtype = MsgType.cmd.code
  · rw [if_pos hcmd]
    exact hcommand .cmd (by rw [hcmd]; decide) _ rfl
  rw [if_neg hcmd]
  by_cases hrrq : f.mtype = MsgType.cmdRrq.code
  · rw [if_pos hrrq]
    exact hcommand .cmdRrq (by rw [hrrq]; decide) _ rfl
  rw [if_neg hrrq]
  split_ifs with hka hk hk
  · subst hk
    rw [Device.sendKeepalive, hsend, ← session_hear, Conn.hear, if_pos hka]
    simp [Device.modifyConn]
  · rw [Device.sendKeepalive, hsend]
    simp [Device.modifyConn, hk]
  · rw [hk, Conn.hear, if_neg hka]
  · rfl

/-- **The loop over the frames** lets the connection hear those of the parse. -/
theorem conns_rxLoop (size : ℕ) (c : Fin K.maxConnections) (junk : Ptr) (bs : Bytes) (d : Device K)
    (k : Fin K.maxConnections) :
    ((rxLoop size (Device.handleFrame c) junk bs d).1.conns k).session =
      if k = c then ((rxFraming size).parse bs).1.foldl Conn.hear (d.conns c).session
      else (d.conns k).session := by
  have hnone (e : Device K) : (e.conns k).session =
      if k = c then ([] : List Frame).foldl Conn.hear (e.conns c).session
      else (e.conns k).session := by
    split_ifs with hk
    · rw [hk]
      rfl
    · rfl
  induction bs using (rxFraming size).induction generalizing d with
  | wait bs h =>
    rw [rxLoop_of_wait h, Framing.parse_of_wait h]
    exact hnone d
  | drop bs h =>
    rw [rxLoop_of_drop h, Framing.parse_of_drop h]
    exact hnone d
  | frame bs n f h ih =>
    rw [rxLoop_of_frame h, Framing.parse_of_frame h, ih, conns_handleFrame, conns_handleFrame,
      if_pos rfl]
    split_ifs <;> rfl

end Entries

/-! ### Sessions -/

theorem heartbeat_foldl_hear (fs : List Frame) (e : Conn) :
    (fs.foldl Conn.hear e).heartbeat =
      (fs.filterMap Frame.heartbeat).getLast?.getD e.heartbeat := by
  induction fs using List.reverseRecOn with
  | nil => rfl
  | append_singleton fs f ih =>
    rw [List.foldl_append, List.filterMap_append, List.getLast?_append]
    change ((fs.foldl Conn.hear e).hear f).heartbeat = _
    rw [heartbeat_hear, ih]
    cases hf : f.heartbeat <;> simp [hf]

/-- A session in which the bytes `bs` were heard: the entry holds what is left of their parse, and
the heartbeat they negotiate. -/
structure Conn.Hears (size : ℕ) (e : Conn) (bs : Bytes) : Prop where
  rest : ((rxFraming size).parse bs).2 = (e.rx, true)
  heartbeat : e.heartbeat = negotiated ((rxFraming size).parse bs).1

theorem Conn.Hears.of_session {size : ℕ} {e e' : Conn} {bs : Bytes} (h : e.Hears size bs)
    (he : e'.session = e.session) : e'.Hears size bs where
  rest := by
    have hrx : e'.session.rx = e.session.rx := by rw [he]
    exact h.rest.trans (congrArg (·, true) hrx.symm)
  heartbeat := by
    have hbeat : e'.session.heartbeat = e.session.heartbeat := by rw [he]
    exact hbeat.trans h.heartbeat

/-- A session that begins. -/
theorem Conn.Hears.begin {size : ℕ} {e : Conn} (hrx : e.rx = []) (hbeat : e.heartbeat = (0, 0)) :
    e.Hears size [] := by
  have hwait : rxHead size [] = .wait := rxHead_of_short (by decide)
  have hshort : (rxFraming size).parse [] = ([], [], true) := Framing.parse_of_wait hwait
  refine ⟨?_, ?_⟩
  · rw [hshort, hrx]
  · rw [hshort, hbeat]
    rfl

namespace Device

/-- The bytes that a read call delivers, at most the room of the buffer. -/
def took (d : Device K) (c : Fin K.maxConnections) (bs : Bytes) : Bytes :=
  bs.take (K.rxBufferSize - (d.conns c).rx.length)

/-- The bytes that `tls_service_rx` reads. -/
def tlsHeard (c : Fin K.maxConnections) (now : ℤ) : List ReadResult → Device K → Bytes
  | [], _ => []
  | .wouldBlock :: _, _ => []
  | .data bs junk :: rs, d =>
    d.took c bs ++
      (let (d, keep) := d.receive c now bs junk
      if !keep then []
      else if (d.conns c).inUse && decide ((d.conns c).rx.length < K.rxBufferSize) then
        tlsHeard c now rs d
      else [])

/-- The bytes that the server task reads from a connection in its turn. -/
def heard (d : Device K) (c : Fin K.maxConnections) (now : ℤ) (inp : SlotInput) : Bytes :=
  if !(d.conns c).inUse then []
  else if (d.conns c).handshaking then []
  else if (d.conns c).tls then
    if inp.readable then tlsHeard c now inp.reads d else []
  else if inp.readable then
    match inp.reads with
    | .data bs _ :: _ => d.took c bs
    | _ => []
  else []

end Device

section Sessions

variable {d d' d'' : Device K} {c k : Fin K.maxConnections} {now : ℤ} {heard : Bytes}

/-- What a read call does: the frames that it completes are handled, the rest is kept. -/
theorem receive_eq_rxLoop {bs : Bytes} {junk : Ptr} (hne : d.took c bs ≠ []) :
    d.receive c now bs junk =
      ((rxLoop K.rxBufferSize (Device.handleFrame c) junk ((d.conns c).rx ++ d.took c bs)
        (d.modifyConn c fun e =>
          { e with rx := e.rx ++ d.took c bs, lastRxUs := now })).1.modifyConn c
        fun e => { e with
          rx := ((rxFraming K.rxBufferSize).parse ((d.conns c).rx ++ d.took c bs)).2.1 },
        ((rxFraming K.rxBufferSize).parse ((d.conns c).rx ++ d.took c bs)).2.2) := by
  have hsize : 10 ≤ K.rxBufferSize := le_trans (by decide) K.rxBufferSize_range.1
  have hrx : ((d.modifyConn c fun e =>
      { e with rx := e.rx ++ d.took c bs, lastRxUs := now }).conns c).rx =
      (d.conns c).rx ++ d.took c bs := by simp [Device.modifyConn]
  have hrest := @rxLoop_rest (Device K) K.rxBufferSize (Device.handleFrame c) junk
    ((d.conns c).rx ++ d.took c bs)
    (d.modifyConn c fun e => { e with rx := e.rx ++ d.took c bs, lastRxUs := now })
  rw [← hrest]
  change (if d.took c bs = [] then (d, false) else (d.modifyConn c fun e =>
    { e with rx := e.rx ++ d.took c bs, lastRxUs := now }).processRx c junk) = _
  rw [if_neg hne, Device.processRx, hrx, processRx_eq_rxLoop hsize]

theorem receive_of_nothing {bs : Bytes} {junk : Ptr} (h : d.took c bs = []) :
    d.receive c now bs junk = (d, false) := by
  unfold Device.receive
  dsimp only
  exact if_pos h

/-- **A read call** that is kept has heard the bytes it delivered. -/
theorem hears_receive {bs : Bytes} {junk : Ptr} (h : (d.conns c).Hears K.rxBufferSize heard)
    (hkeep : (d.receive c now bs junk).2 = true) :
    ((d.receive c now bs junk).1.conns c).Hears K.rxBufferSize (heard ++ d.took c bs) := by
  by_cases hne : d.took c bs = []
  · rw [receive_of_nothing hne] at hkeep
    cases hkeep
  rw [receive_eq_rxLoop hne] at hkeep ⊢
  have hparse := Framing.parse_append (F := rxFraming K.rxBufferSize) heard (d.took c bs)
  rw [h.rest, if_pos rfl] at hparse
  have hconn := conns_rxLoop K.rxBufferSize c junk ((d.conns c).rx ++ d.took c bs)
    (d.modifyConn c fun e => { e with rx := e.rx ++ d.took c bs, lastRxUs := now }) c
  rw [if_pos rfl] at hconn
  refine ⟨?_, ?_⟩
  · rw [hparse]
    refine Prod.ext ?_ hkeep
    simp [Device.modifyConn]
  · have hbeat := congrArg Conn.heartbeat hconn
    rw [heartbeat_foldl_hear] at hbeat
    have hbefore : ((d.modifyConn c fun e =>
        { e with rx := e.rx ++ d.took c bs, lastRxUs := now }).conns c).session.heartbeat =
        negotiated ((rxFraming K.rxBufferSize).parse heard).1 := by
      rw [← h.heartbeat]
      simp [Device.modifyConn, Conn.session, Conn.heartbeat]
    rw [hparse, negotiated_append, ← hbefore, ← hbeat]
    simp [Device.modifyConn, Conn.session, Conn.heartbeat]

theorem conns_receive {bs : Bytes} {junk : Ptr} (hk : k ≠ c) :
    ((d.receive c now bs junk).1.conns k).session = (d.conns k).session := by
  by_cases hne : d.took c bs = []
  · rw [receive_of_nothing hne]
  rw [receive_eq_rxLoop hne]
  have hconn := conns_rxLoop K.rxBufferSize c junk ((d.conns c).rx ++ d.took c bs)
    (d.modifyConn c fun e => { e with rx := e.rx ++ d.took c bs, lastRxUs := now }) k
  rw [if_neg hk] at hconn
  simpa [Device.modifyConn, hk] using hconn

/-- **The TLS loop** hears what its read calls deliver. -/
theorem hears_tlsServiceRx (rs : List ReadResult) (h : (d.conns c).Hears K.rxBufferSize heard)
    (hkeep : (Device.tlsServiceRx c now rs d).2 = true) :
    ((Device.tlsServiceRx c now rs d).1.conns c).Hears K.rxBufferSize
      (heard ++ Device.tlsHeard c now rs d) := by
  induction rs generalizing d heard with
  | nil => simpa [Device.tlsServiceRx, Device.tlsHeard] using h
  | cons r rs ih =>
    cases r with
    | wouldBlock => simpa [Device.tlsServiceRx, Device.tlsHeard] using h
    | data bs junk =>
      unfold Device.tlsServiceRx at hkeep ⊢
      unfold Device.tlsHeard
      dsimp only at hkeep ⊢
      by_cases hgood : (d.receive c now bs junk).2 = true
      · have hone := hears_receive h hgood
        simp only [hgood, Bool.not_true, Bool.false_eq_true, if_false] at hkeep ⊢
        by_cases hroom : (((d.receive c now bs junk).1.conns c).inUse &&
            decide (((d.receive c now bs junk).1.conns c).rx.length < K.rxBufferSize)) = true
        · rw [if_pos hroom] at hkeep ⊢
          rw [if_pos hroom, ← List.append_assoc]
          exact ih hone hkeep
        · rw [if_neg hroom, if_neg hroom, List.append_nil]
          exact hone
      · rw [if_pos (by simp [hgood])] at hkeep
        cases hkeep

theorem conns_tlsServiceRx (rs : List ReadResult) (hk : k ≠ c) (d : Device K) :
    ((Device.tlsServiceRx c now rs d).1.conns k).session = (d.conns k).session := by
  induction rs generalizing d with
  | nil => rfl
  | cons r rs ih =>
    cases r with
    | wouldBlock => rfl
    | data bs junk =>
      have hone : ((d.receive c now bs junk).1.conns k).session = (d.conns k).session :=
        conns_receive hk
      unfold Device.tlsServiceRx
      dsimp only
      split_ifs
      · exact hone
      · exact (ih _).trans hone
      · exact hone

/-- What is left in use is as it was, up to the times of transmission. -/
def Remains (d d' : Device K) : Prop :=
  ∀ k, (d'.conns k).inUse = true → (d'.conns k).session = (d.conns k).session

theorem Remains.trans (h : Remains d d') (h' : Remains d' d'') : Remains d d'' := by
  intro k huse
  have hlast := h' k huse
  have huse' : (d'.conns k).inUse = true := by
    have hsame : (d''.conns k).session.inUse = (d'.conns k).session.inUse := by rw [hlast]
    exact hsame.symm.trans huse
  exact hlast.trans (h k huse')

theorem SameEntries.remains (h : SameEntries d d') : Remains d d' := fun k _ => h k

theorem remains_closeConn (d : Device K) (c : Fin K.maxConnections) :
    Remains d (d.closeConn c) := by
  intro k huse
  by_cases hopen : (d.conns c).inUse = true
  · rw [Device.closeConn_of_inUse hopen] at huse ⊢
    by_cases hk : k = c
    · rw [hk] at huse
      simp [Conn.empty] at huse
    · simp [hk]
  · rw [Device.closeConn, if_pos (by simpa using hopen)]

/-- A connection that is in use after its turn was to be kept. -/
theorem closeUnless_of_inUse {r : Device K × Bool}
    (huse : ((Device.closeUnless c r).conns c).inUse = true) :
    r.2 = true ∧ Device.closeUnless c r = r.1 := by
  unfold Device.closeUnless at huse ⊢
  split_ifs at huse ⊢ with hkeep
  · exact ⟨hkeep, rfl⟩
  · rw [Device.inUse_closeConn] at huse
    cases huse

/-- The handshake reads nothing of the stream. -/
theorem hears_tlsDriveHandshake (r : HandshakeResult) (answer : Bool)
    (h : (d.conns c).Hears K.rxBufferSize heard) :
    ((d.tlsDriveHandshake c now r answer).1.conns c).Hears K.rxBufferSize heard := by
  have hset (granted : Bool) : ((d.modifyConn c fun e => { e with
      handshaking := false, lastRxUs := now, privileged := granted }).conns c).Hears
      K.rxBufferSize heard := by
    simp only [Device.modifyConn, Function.update_self]
    exact ⟨h.rest, h.heartbeat⟩
  unfold Device.tlsDriveHandshake
  split
  · exact h
  · cases r with
    | wouldBlock | failed => exact h
    | done => exact hset _

/-- **The turn of a connection**, if it is in use after it. -/
theorem hears_serviceConn (inp : SlotInput) (h : (d.conns c).Hears K.rxBufferSize heard)
    (huse : ((d.serviceConn c now inp).conns c).inUse = true) :
    ((d.serviceConn c now inp).conns c).Hears K.rxBufferSize (heard ++ d.heard c now inp) := by
  have hsilent : (d.conns c).Hears K.rxBufferSize (heard ++ []) := by rwa [List.append_nil]
  unfold Device.serviceConn at huse ⊢
  unfold Device.heard
  by_cases hidle : (!(d.conns c).inUse) = true
  · rw [if_pos hidle, if_pos hidle]
    exact hsilent
  rw [if_neg hidle] at huse ⊢
  rw [if_neg hidle]
  by_cases hshake : (d.conns c).handshaking = true
  · rw [if_pos hshake] at huse ⊢
    rw [if_pos hshake, (closeUnless_of_inUse huse).2]
    exact hears_tlsDriveHandshake _ _ hsilent
  rw [if_neg hshake] at huse ⊢
  rw [if_neg hshake]
  by_cases hread : inp.readable = true
  · simp only [hread, if_true] at huse ⊢
    split_ifs at huse ⊢
    · obtain ⟨hkeep, heq⟩ := closeUnless_of_inUse huse
      rw [heq]
      exact hears_tlsServiceRx inp.reads h hkeep
    · cases hreads : inp.reads with
      | nil =>
        simp only [hreads] at huse
        rw [Device.inUse_closeConn] at huse
        cases huse
      | cons r rs =>
        cases r with
        | wouldBlock =>
          simp only [hreads] at huse
          rw [Device.inUse_closeConn] at huse
          cases huse
        | data bs junk =>
          simp only [hreads] at huse ⊢
          obtain ⟨hkeep, heq⟩ := closeUnless_of_inUse huse
          rw [heq]
          exact hears_receive h hkeep
  · simp only [hread, Bool.false_eq_true, if_false, ite_self]
    exact hsilent

theorem remains_closeUnless {r : Device K × Bool} (h : (r.1.conns k).session = (d.conns k).session)
    (huse : ((Device.closeUnless c r).conns k).inUse = true) :
    ((Device.closeUnless c r).conns k).session = (d.conns k).session := by
  unfold Device.closeUnless at huse ⊢
  split_ifs at huse ⊢
  · exact h
  · exact (remains_closeConn r.1 c k huse).trans h

/-- The turn of a connection is nothing to the others. -/
theorem remains_serviceConn (inp : SlotInput) (hk : k ≠ c)
    (huse : ((d.serviceConn c now inp).conns k).inUse = true) :
    ((d.serviceConn c now inp).conns k).session = (d.conns k).session := by
  have hshake : ((d.tlsDriveHandshake c now inp.handshake inp.answer).1.conns k).session =
      (d.conns k).session := by
    unfold Device.tlsDriveHandshake
    split
    · rfl
    · cases inp.handshake with
      | wouldBlock | failed => rfl
      | done => simp [Device.modifyConn, Device.emit, hk]
  unfold Device.serviceConn at huse ⊢
  split_ifs at huse ⊢
  · rfl
  · exact remains_closeUnless hshake huse
  · exact remains_closeUnless (conns_tlsServiceRx inp.reads hk d) huse
  · rfl
  · revert huse
    split
    · exact remains_closeUnless (conns_receive hk)
    · exact remains_closeConn d c k
  · rfl

theorem remains_serviceKeepalive (now : ℤ) (d : Device K) : Remains d (d.serviceKeepalive now) :=
  List.foldlRecOn (motive := Remains d) _ _ (fun _ _ => rfl) fun d' hd c _ => hd.trans (by
    unfold Device.keepaliveConn
    dsimp only
    split_ifs
    · exact fun _ _ => rfl
    · exact remains_closeConn d' c
    · exact SameEntries.remains (.of_core (Device.core_connSend d' c _))
    · exact fun _ _ => rfl)

end Sessions

/-! ### The server -/

/-- The device, and for each slot the bytes heard in the session that has it. -/
structure Hearing (K : Kconfig) where
  dev : Device K
  heard : Fin K.maxConnections → Bytes

/-- The bytes that a step reads from a connection. -/
def Input.heard (d : Device K) (inp : Input K) (c : Fin K.maxConnections) : Bytes :=
  match inp with
  | .service k now slot => if k = c then d.heard k now slot else []
  | _ => []

/-- A step, and what is heard in it. A session that ends or begins has heard nothing. -/
def Hearing.step (s : Hearing K) (inp : Input K) : Hearing K where
  dev := inp.run s.dev
  heard c := if (s.dev.conns c).inUse = true ∧ ((inp.run s.dev).conns c).inUse = true
    then s.heard c ++ inp.heard s.dev c else []

/-- The server, with the bytes of each session. -/
def hearing (K : Kconfig) : Machine (Hearing K) (Input K) where
  init s := (server K).init s.dev ∧ ∀ c, s.heard c = []
  ok s inp := inp.Legal s.dev
  step s inp := s.step inp

/-- Every session in use has heard its bytes. -/
def Hearing.Right (s : Hearing K) : Prop :=
  ∀ c, (s.dev.conns c).inUse = true → (s.dev.conns c).Hears K.rxBufferSize (s.heard c)

section Server

variable {d : Device K} {s : Hearing K} {inp : Input K}

/-- A connection that was accepted has heard nothing, the others are as they were. -/
def Opens (d d' : Device K) : Prop :=
  ∀ c, (d'.conns c).inUse = true → (d'.conns c).session = (d.conns c).session ∨
    (d.conns c).inUse = false ∧ (d'.conns c).rx = [] ∧ (d'.conns c).heartbeat = (0, 0)

theorem opens_modifyConn {c : Fin K.maxConnections} {e : Conn} (hfree : (d.conns c).inUse = false)
    (hrx : e.rx = []) (hbeat : e.heartbeat = (0, 0)) : Opens d (d.modifyConn c fun _ => e) := by
  intro k _
  by_cases hk : k = c
  · subst hk
    refine .inr ⟨hfree, ?_, ?_⟩
    · simpa [Device.modifyConn] using hrx
    · simpa [Device.modifyConn] using hbeat
  · left
    simp [Device.modifyConn, hk]

/-- **What a step does to the connections**, other than the turn of one. -/
theorem opens_input (h : ∀ c now slot, inp ≠ .service c now slot) : Opens d (inp.run d) := by
  have hremains {d' : Device K} (hd : Remains d d') : Opens d d' := fun c huse => .inl (hd c huse)
  have hsame {d' : Device K} (hd : d'.conns = d.conns) : Opens d d' :=
    hremains fun c _ => by rw [hd]
  cases inp with
  | create call parent role =>
    obtain ⟨objects, next, he⟩ := d.create_eq call parent role
    exact hsame (by rw [Input.run, he])
  | setLabel | setSecured | setTag => exact hsame rfl
  | matrixSetMember i x y member =>
    obtain ⟨objects, he⟩ := d.matrixSetMember_eq i x y member
    exact hsame (by rw [Input.run, he])
  | post i req =>
    refine hsame ?_
    change (d.postSet req).conns = d.conns
    unfold Device.postSet
    split_ifs <;> rfl
  | drain =>
    refine hremains (SameEntries.remains ?_)
    exact List.foldlRecOn (motive := SameEntries d) _ _ (fun _ => rfl)
      fun d' hd req _ => hd.trans (routeOrder_sameEntries.applySet d' req)
  | accept addr port answer =>
    change Opens d (d.acceptConn addr port answer)
    unfold Device.acceptConn
    split
    · exact hsame rfl
    · next c hc =>
      have hfree : (d.conns c).inUse = false := by simpa using List.find?_some hc
      exact opens_modifyConn hfree rfl rfl
  | acceptTls addr port sessionOk =>
    change Opens d (d.acceptTlsConn addr port sessionOk)
    unfold Device.acceptTlsConn
    split
    · exact hsame rfl
    · next c hc =>
      have hfree : (d.conns c).inUse = false := by simpa using List.find?_some hc
      split_ifs
      · exact hsame rfl
      · exact opens_modifyConn hfree rfl rfl
  | service c now slot => exact absurd rfl (h c now slot)
  | keepalive now => exact hremains (remains_serviceKeepalive now d)

/-- **Every step** of the server hears what it reads. -/
theorem right_step (h : s.Right) (inp : Input K) : (s.step inp).Right := by
  intro c huse
  change ((inp.run s.dev).conns c).inUse = true at huse
  change ((inp.run s.dev).conns c).Hears K.rxBufferSize
    (if (s.dev.conns c).inUse = true ∧ ((inp.run s.dev).conns c).inUse = true
      then s.heard c ++ inp.heard s.dev c else [])
  -- a session that goes on as it was, unless it is its turn
  have hgoes (hsession : ((inp.run s.dev).conns c).session = (s.dev.conns c).session)
      (hnothing : inp.heard s.dev c = []) : ((inp.run s.dev).conns c).Hears K.rxBufferSize
        (if (s.dev.conns c).inUse = true ∧ ((inp.run s.dev).conns c).inUse = true
          then s.heard c ++ inp.heard s.dev c else []) := by
    have huse' : ((inp.run s.dev).conns c).session.inUse = (s.dev.conns c).session.inUse := by
      rw [hsession]
    have hopen : (s.dev.conns c).inUse = true := huse'.symm.trans huse
    rw [if_pos ⟨hopen, huse⟩, hnothing, List.append_nil]
    exact (h c hopen).of_session hsession
  by_cases hservice : ∃ k now slot, inp = .service k now slot
  · obtain ⟨k, now, slot, rfl⟩ := hservice
    by_cases hk : k = c
    · subst hk
      have hopen : (s.dev.conns k).inUse = true := by
        by_contra hidle
        change ((s.dev.serviceConn k now slot).conns k).inUse = true at huse
        rw [Device.serviceConn, if_pos (by simpa using hidle)] at huse
        exact hidle huse
      rw [if_pos ⟨hopen, huse⟩, Input.heard, if_pos rfl]
      exact hears_serviceConn slot (h k hopen) huse
    · exact hgoes (remains_serviceConn slot (Ne.symm hk) huse) (if_neg hk)
  · have hother : ∀ k now slot, inp ≠ .service k now slot := fun k now slot he =>
      hservice ⟨k, now, slot, he⟩
    have hnothing : inp.heard s.dev c = [] := by
      cases inp with
      | service k now slot => exact absurd rfl (hother k now slot)
      | _ => rfl
    obtain hsession | ⟨hfree, hrx, hbeat⟩ := opens_input (d := s.dev) hother c huse
    · exact hgoes hsession hnothing
    · rw [if_neg (by simp [hfree])]
      exact .begin hrx hbeat

/-- **A session is what it has heard.** In every reachable state, whatever the other sessions and
the application did, the reference parse of the bytes of a session has not given it up, its rest is
what the receive buffer holds, and the heartbeat is the one that the last of its frames to ask for
one has asked for. -/
theorem hearing_session (h : (hearing K).Reach s) {c : Fin K.maxConnections}
    (huse : (s.dev.conns c).inUse = true) :
    ∃ fs, RefParse K.rxBufferSize (s.heard c) fs (s.dev.conns c).rx true ∧
      (s.dev.conns c).heartbeat = negotiated fs := by
  have hright : s.Right := h.invariant (I := Hearing.Right) (fun s hs => ?_)
    (fun s inp _ hs _ => right_step hs inp)
  · have hc := hright c huse
    have hparse := refParse_parse K.rxBufferSize (s.heard c)
    rw [hc.rest] at hparse
    exact ⟨_, hparse, hc.heartbeat⟩
  · obtain ⟨⟨cfg, net, hstart⟩, -⟩ := hs
    obtain ⟨e, he⟩ := start_eq hstart
    intro c huse
    rw [he] at huse
    cases huse

end Server

namespace Sample

/-- The client in slot 0 connects and asks for a heartbeat of five seconds. -/
def listening : Hearing .default :=
  ((⟨start, fun _ => []⟩ : Hearing .default).step (.accept [] 0 true)).step beat

theorem reach_listening : (hearing .default).Reach listening := by
  have hinit : (server .default).init start := ⟨config, net, (Option.some_get _).symm⟩
  have hstart : (hearing .default).Reach ⟨start, fun _ => []⟩ := .init ⟨hinit, fun _ => rfl⟩
  have hrun : (hearing .default).Run ⟨start, fun _ => []⟩ [.accept [] 0 true, beat] listening :=
    .cons trivial (.cons trivial (.nil _))
  exact hstart.run hrun

theorem hearing_beat : ∃ fs, RefParse 2048 heartbeatFrame fs [] true ∧
    negotiated fs = (5000, 2) := by
  have hdev : beat.run connected = beaten connected := run_beat (by decide +kernel)
  have huse : ((beat.run connected).conns firstSlot).inUse = true := by
    rw [hdev]
    decide +kernel
  have hheard : listening.heard firstSlot = heartbeatFrame := by
    change (if (connected.conns firstSlot).inUse = true ∧
      ((beat.run connected).conns firstSlot).inUse = true then _ else _) = _
    rw [if_pos ⟨by decide +kernel, huse⟩]
    decide +kernel
  obtain ⟨fs, hparse, hbeat⟩ := hearing_session reach_listening huse
  rw [hheard] at hparse
  have hrx : ((beat.run connected).conns firstSlot).rx = [] ∧
      ((beat.run connected).conns firstSlot).heartbeat = (5000, 2) := by
    rw [hdev]
    decide +kernel
  exact ⟨fs, hrx.1 ▸ hparse, hbeat.symm.trans hrx.2⟩

end Sample

end Aes70
