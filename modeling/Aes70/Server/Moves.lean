import Mathlib.Logic.Relation
import Aes70.Router.Message
import Aes70.Server.Command
import Aes70.Server.Machine
import Aes70.Transport.Assembly

/-!
# The moves of the server

A step of the machine can do many things in one go: a single read call may hand over several
frames with several commands each. `Move` lists what it does one by one, and every step is a
sequence of moves. What holds of sessions is proved for one move.

* `Move T d d'` : a command, the opening or closing of a connection, a posted request, or something
  steady.
* `Sound T d` : the objects are registered; if `T`, the requests in the queue are well typed.
* `moves_step` : every step of the environment is a sequence of moves.
-/

namespace Aes70

variable {K : Kconfig}

/-! ### Moves -/

/-- The connection is open for commands: it is in use and has no handshake to finish. -/
def Conn.Live (e : Conn) : Prop := e.inUse = true ∧ e.handshaking = false

theorem Conn.Live.of_standing {e e' : Conn} (h : e.Live) (hs : e'.standing = e.standing) :
    e'.Live := by
  simp only [standing, Conn.mk.injEq] at hs
  exact ⟨hs.1.trans h.1, hs.2.2.2.2.1.trans h.2⟩

/-- The request is for an object of the device, and carries a string if that object does. -/
def SetReq.WellTyped (d : Device K) (req : SetReq) : Prop :=
  ∃ i < d.objects.length, req.ono = (d.obj i).ono ∧
    (req.isString = true ↔ (d.obj i).kind = .string) ∧ req.str.length ≤ 95

/-- The entry of a plaintext connection that was just accepted. -/
def Conn.plain (now : ℤ) (addr : Bytes) (port : UInt16) (granted : Bool) : Conn :=
  { Conn.empty with
    inUse := true, lastRxUs := now, lastTxUs := now, addr, port, privileged := granted }

/-- The entry of a TLS connection that was just accepted. -/
def Conn.greeting (now deadline : ℤ) (addr : Bytes) (port : UInt16) : Conn :=
  { Conn.empty with
    inUse := true, tls := true, secure := true, handshaking := true, lastRxUs := now
    lastTxUs := now, hsDeadlineUs := deadline, addr, port }

/-- One thing the server does. -/
inductive Move (T : Prop) (d : Device K) : Device K → Prop
  | steady {d' : Device K} (h : Steady T d d') : Move T d d'
  /-- A command of an open connection is executed. -/
  | command {c : Fin K.maxConnections} {cmd : Command} {st : Status} {d' : Device K}
    (hlive : (d.conns c).Live) (h : Executed T d c cmd st d') :
    Move T d (d'.emit (.command c cmd st))
  | accept {c : Fin K.maxConnections} (now : ℤ) (addr : Bytes) (port : UInt16) (granted : Bool)
    (hfree : (d.conns c).inUse = false) (hpolicy : d.cfg.authorize = false → granted = false) :
    Move T d (((d.modifyConn c fun _ => .plain now addr port granted).emit
      (.accepted c false)).emit (.authorized c granted))
  | acceptTls {c : Fin K.maxConnections} (now deadline : ℤ) (addr : Bytes) (port : UInt16)
    (hfree : (d.conns c).inUse = false) :
    Move T d ((d.modifyConn c fun _ => .greeting now deadline addr port).emit (.accepted c true))
  /-- A TLS handshake is completed. -/
  | handshake {c : Fin K.maxConnections} (now : ℤ) (granted : Bool)
    (huse : (d.conns c).inUse = true) (hshake : (d.conns c).handshaking = true)
    (hpolicy : d.cfg.authorize = false → granted = d.cfg.clientCaPem) :
    Move T d ((d.modifyConn c fun e =>
      { e with handshaking := false, lastRxUs := now, privileged := granted }).emit
        (.authorized c granted))
  | close {c : Fin K.maxConnections} (huse : (d.conns c).inUse = true) : Move T d (d.closeConn c)
  | post {req : SetReq} (h : T → req.WellTyped d) : Move T d { d with cmdQ := d.cmdQ ++ [req] }

/-- What moves rely on and keep. -/
structure Sound (T : Prop) (d : Device K) : Prop where
  registry : d.Registry
  queue : T → ∀ req ∈ d.cmdQ, req.WellTyped d

/-! ### Moves are sound -/

/-- The objects keep their identity, and no request is added. -/
structure Keeps (d d' : Device K) : Prop where
  length : d.objects.length ≤ d'.objects.length
  ident : ∀ i < d.objects.length, (d'.obj i).ident = (d.obj i).ident
  registry : d.Registry → d'.Registry
  cmdQ : ∀ req ∈ d'.cmdQ, req ∈ d.cmdQ

section Sound

variable {T : Prop} {d d' : Device K} {c : Fin K.maxConnections}

theorem Steady.keeps (h : Steady T d d') : Keeps d d' := ⟨h.length, h.ident, h.registry, h.cmdQ⟩

/-- Stores that respect identities. -/
theorem Keeps.of_ident (hlen : d'.objects.length = d.objects.length)
    (hident : ∀ i, (d'.obj i).ident = (d.obj i).ident) (hnext : d'.nextOno = d.nextOno)
    (hcmdQ : d'.cmdQ = d.cmdQ) : Keeps d d' where
  length := hlen.ge
  ident i _ := hident i
  registry h := h.congr hlen (fun i _ => hident i) hnext
  cmdQ _ h := hcmdQ ▸ h

theorem Executed.keeps {n : ℕ} {cmd : Command} {st : Status} (h : Executed T d n cmd st d') :
    Keeps d d' := by
  cases h with
  | other h => exact h.keeps
  | lock | unlock =>
    exact .of_ident (d.length_modifyObj _ _)
      (fun j => Device.obj_modifyObj_congr Obj.ident (fun _ => by rfl) d _ j) rfl rfl
  | subscribed | subscribe | unsubscribe => exact .of_ident rfl (fun _ => rfl) rfl rfl

namespace Device

/-- The locks of a connection are dropped wherever they are. -/
theorem obj_locksDropConn (d : Device K) (c : ℕ) (i : ObjRef) :
    (d.locksDropConn c).obj i = if (d.obj i).lockOwner = some c
      then { d.obj i with lockState := .none, lockOwner := none } else d.obj i := by
  simp only [locksDropConn, obj, List.getD_eq_getElem?_getD, List.getElem?_map]
  cases d.objects[i]? with
  | none => simp [Obj.fresh]
  | some o => simp

theorem ident_locksDropConn (d : Device K) (c : ℕ) (i : ObjRef) :
    ((d.locksDropConn c).obj i).ident = (d.obj i).ident := by
  rw [obj_locksDropConn]
  split_ifs <;> rfl

theorem closeConn_of_inUse (h : (d.conns c).inUse = true) : d.closeConn c = { d with
    objects := (d.locksDropConn c).objects
    subs := (d.subscriptionsDropConn c).subs
    conns := Function.update d.conns c .empty
    log := d.log ++ [.closed c] } := by
  rw [closeConn, h]
  rfl

theorem obj_closeConn (h : (d.conns c).inUse = true) (i : ObjRef) :
    (d.closeConn c).obj i = (d.locksDropConn c).obj i := by
  rw [closeConn_of_inUse h]
  rfl

theorem log_closeConn (h : (d.conns c).inUse = true) :
    (d.closeConn c).log = d.log ++ [.closed c] := by
  rw [closeConn_of_inUse h]

theorem inUse_closeConn (d : Device K) (c : Fin K.maxConnections) :
    ((d.closeConn c).conns c).inUse = false := by
  by_cases hopen : (d.conns c).inUse = true
  · rw [closeConn_of_inUse hopen]
    simp [Conn.empty]
  · rw [closeConn, if_pos (by simpa using hopen)]
    simpa using hopen

end Device

theorem keeps_closeConn (huse : (d.conns c).inUse = true) : Keeps d (d.closeConn c) := by
  rw [Device.closeConn_of_inUse huse]
  have hlen : (d.locksDropConn c).objects.length = d.objects.length := List.length_map ..
  exact .of_ident hlen (d.ident_locksDropConn c) rfl rfl

theorem SetReq.WellTyped.keeps {req : SetReq} (hreq : req.WellTyped d) (h : Keeps d d') :
    req.WellTyped d' := by
  obtain ⟨i, hi, hono, hkind, hlen⟩ := hreq
  obtain ⟨hono', hkind'⟩ := Prod.mk.inj (h.ident i hi)
  refine ⟨i, hi.trans_le h.length, hono.trans hono'.symm, ?_, hlen⟩
  rwa [hkind']

theorem Sound.keeps (hd : Sound T d) (h : Keeps d d') : Sound T d' where
  registry := h.registry hd.registry
  queue hT req hreq := (hd.queue hT req (h.cmdQ req hreq)).keeps h

theorem Move.sound (h : Move T d d') (hd : Sound T d) : Sound T d' := by
  cases h with
  | steady h => exact hd.keeps h.keeps
  | command _ h =>
    exact hd.keeps ⟨h.keeps.length, h.keeps.ident,
      fun hr => (h.keeps.registry hr).congr rfl (fun _ _ => rfl) rfl, h.keeps.cmdQ⟩
  | accept | acceptTls | handshake => exact hd.keeps (.of_ident rfl (fun _ => rfl) rfl rfl)
  | close huse => exact hd.keeps (keeps_closeConn huse)
  | post h =>
    refine ⟨hd.registry.congr rfl (fun _ _ => rfl) rfl, fun hT req hreq => ?_⟩
    rcases List.mem_append.1 hreq with hold | hnew
    · exact hd.queue hT req hold
    · obtain rfl := List.mem_singleton.1 hnew
      exact h hT

end Sound

/-- The device moves on. -/
abbrev Moves (T : Prop) : Device K → Device K → Prop := Relation.ReflTransGen (Move T)

theorem Moves.sound {T : Prop} {d d' : Device K} (h : Moves T d d') (hd : Sound T d) :
    Sound T d' := by
  induction h with
  | refl => exact hd
  | tail _ hmove ih => exact hmove.sound ih

/-! ### Serving a connection -/

/-- The device moves on, and no connection is opened or closed. -/
structure Serves (T : Prop) (d d' : Device K) : Prop where
  moves : Moves T d d'
  standing : ∀ c, (d'.conns c).standing = (d.conns c).standing

namespace Serves

variable {T : Prop} {d d' d'' : Device K}

theorem refl (d : Device K) : Serves T d d := ⟨.refl, fun _ => rfl⟩

theorem trans (h : Serves T d d') (h' : Serves T d' d'') : Serves T d d'' :=
  ⟨h.moves.trans h'.moves, fun c => (h'.standing c).trans (h.standing c)⟩

theorem steady (h : Steady T d d') : Serves T d d' := ⟨.single (.steady h), h.standing⟩

/-- A connection that is served stays open. -/
theorem live (h : Serves T d d') {c : Fin K.maxConnections} (hlive : (d.conns c).Live) :
    (d'.conns c).Live := hlive.of_standing (h.standing c)

end Serves

section Serving

variable {T : Prop} {d : Device K} {c : Fin K.maxConnections}

theorem conns_executed {d' : Device K} {n : ℕ} {cmd : Command} {st : Status}
    (h : Executed T d n cmd st d') (k : Fin K.maxConnections) :
    (d'.conns k).standing = (d.conns k).standing := by
  cases h with
  | other h => exact h.standing k
  | _ => rfl

theorem steady_activeConn (x : Option ℕ) : Steady T d { d with activeConn := x } :=
  .of_eq rfl rfl rfl rfl rfl (fun _ h => h) rfl

theorem serves_answer (hd : Sound T d) (hlive : (d.conns c).Live) {cmd : Command} {p : Ptr} {n : ℕ}
    (hparams : cmd.params = p.read n) (room : ℕ) :
    Serves T d (answer room c cmd (Reader.init p n) d).dev := by
  let call : Call K := ⟨{ d with activeConn := some c }, Reader.init p n, Writer.init room, 0⟩
  obtain ⟨d', hexec, hdev⟩ : ∃ d', Executed T call.dev c cmd (execCommand c cmd call).1 d' ∧
      (execCommand c cmd call).2.dev = d'.emit (.command c cmd (execCommand c cmd call).1) :=
    execCommand_executed rfl hparams rfl (hd.registry.congr rfl (fun _ _ => rfl) rfl)
  have hactive : Serves T d { d with activeConn := some (c : ℕ) } := .steady (steady_activeConn _)
  have hanswer : (answer room c cmd (Reader.init p n) d).dev = _ := hdev
  rw [hanswer]
  refine hactive.trans ⟨.single (.command hlive hexec), fun k => ?_⟩
  exact conns_executed hexec k

theorem serves_answers (room n : ℕ) (rd : Reader) (hd : Sound T d) (hlive : (d.conns c).Live) :
    Serves T d (answers room c (commands n rd) d).2 := by
  induction n generalizing rd d with
  | zero => exact .refl d
  | succ n ih =>
    unfold commands
    split
    · exact .refl d
    · next q hq =>
      obtain ⟨p, m, hreader, hparams⟩ := params_of_nextCommand hq
      have hone := serves_answer hd hlive hparams room
      rw [← hreader] at hone
      exact hone.trans (ih q.rest (hone.moves.sound hd) (hone.live hlive))

theorem standing_keepaliveReceived (body : Bytes) (e : Conn) :
    (Device.keepaliveReceived body e).standing = e.standing := by
  unfold Device.keepaliveReceived
  split_ifs <;> rfl

theorem serves_handleFrame (f : Frame) (mem : Ptr) (hd : Sound T d) (hlive : (d.conns c).Live) :
    Serves T d (d.handleFrame c f mem) := by
  have hcommand (type : MsgType) (resp : Device K × Bytes)
      (h : resp = routeCommandPdu d c type f.mcount (Ptr.ofBytes f.body mem) f.body.length
        K.txBufferSize) :
      Serves T d (if resp.2 = [] then resp.1 else resp.1.connSend c resp.2) := by
    have hroute : Serves T d resp.1 := by
      rw [h, routeCommandPdu_dev _ _ _ _ _ _ _ 0]
      exact (serves_answers 0 _ _ hd hlive).trans (.steady (steady_activeConn _))
    split_ifs
    · exact hroute
    · exact hroute.trans (.steady (steady_connSend _ _))
  unfold Device.handleFrame
  by_cases hcmd : f.mtype = MsgType.cmd.code
  · rw [if_pos hcmd]
    exact hcommand .cmd _ rfl
  rw [if_neg hcmd]
  by_cases hrrq : f.mtype = MsgType.cmdRrq.code
  · rw [if_pos hrrq]
    exact hcommand .cmdRrq _ rfl
  rw [if_neg hrrq]
  split_ifs
  · exact .trans (.steady (steady_modifyConn (standing_keepaliveReceived f.body)))
      (.steady (steady_connSend _ _))
  · exact .refl d

theorem serves_processRx (junk : Ptr) (hd : Sound T d) (hlive : (d.conns c).Live) :
    Serves T d (d.processRx c junk).1 := by
  have hloop : Serves T d
      (rxLoop K.rxBufferSize (Device.handleFrame c) junk (d.conns c).rx d).1 :=
    rxLoop_keeps (fun f mem s hs => hs.trans
      (serves_handleFrame f mem (hs.moves.sound hd) (hs.live hlive))) _ (.refl d)
  have hrest (d' : Device K) (rx : Bytes) : Steady T d' (d'.modifyConn c fun e => { e with rx }) :=
    steady_modifyConn fun _ => rfl
  exact hloop.trans (.steady (hrest _ _))

theorem serves_receive (now : ℤ) (bs : Bytes) (junk : Ptr) (hd : Sound T d)
    (hlive : (d.conns c).Live) : Serves T d (d.receive c now bs junk).1 := by
  unfold Device.receive
  dsimp only
  split_ifs
  · exact .refl d
  · have hfilled (rx : Bytes) : Serves T d
        (d.modifyConn c fun e => { e with rx := e.rx ++ rx, lastRxUs := now }) :=
      .steady (steady_modifyConn fun _ => rfl)
    exact (hfilled _).trans
      (serves_processRx junk ((hfilled _).moves.sound hd) ((hfilled _).live hlive))

theorem serves_tlsServiceRx (now : ℤ) (rs : List ReadResult) (hd : Sound T d)
    (hlive : (d.conns c).Live) : Serves T d (Device.tlsServiceRx c now rs d).1 := by
  induction rs generalizing d with
  | nil => exact .refl d
  | cons r rs ih =>
    cases r with
    | wouldBlock => exact .refl d
    | data bs junk =>
      have hone := serves_receive now bs junk hd hlive
      unfold Device.tlsServiceRx
      dsimp only
      split_ifs
      · exact hone
      · exact hone.trans (ih (hone.moves.sound hd) (hone.live hlive))
      · exact hone

end Serving

/-! ### Steps -/

section Steps

variable {T : Prop} {d : Device K} {c : Fin K.maxConnections}

theorem steady_dspApplySet {i : ObjRef} (req : SetReq) : Steady T d (d.dspApplySet i req) := by
  have hwrite {d' : Device K} (h : d.DspWrites i req.sel false d') : Steady T d d' := by
    obtain rfl | ⟨p, rfl⟩ := h
    · exact .refl _
    · exact steady_dspWrite _ _ _
  unfold Device.dspApplySet
  split
  · exact hwrite (d.dspWrites_dynWrite ..)
  · exact hwrite (d.dspWrites_fltWrite ..)
  · exact hwrite (d.dspWrites_peqWrite ..)
  · exact hwrite (d.dspWrites_panWrite ..)
  · exact hwrite (d.dspWrites_sigWrite ..)
  · exact .refl d

theorem moves_closeUnless {r : Device K × Bool} (h : Moves T d r.1) :
    Moves T d (Device.closeUnless c r) := by
  unfold Device.closeUnless
  split_ifs
  · exact h
  · by_cases huse : (r.1.conns c).inUse = true
    · exact h.tail (.close huse)
    · simpa [Device.closeConn, huse] using h

theorem moves_acceptConn (addr : Bytes) (port : UInt16) (answer : Bool) :
    Moves T d (d.acceptConn addr port answer) := by
  unfold Device.acceptConn
  split
  · exact .refl
  · next c hc =>
    have hfree : (d.conns c).inUse = false := by simpa using List.find?_some hc
    refine .single (.accept (c := c) _ addr port _ hfree fun hnone => ?_)
    rw [hnone]
    rfl

theorem moves_acceptTlsConn (addr : Bytes) (port : UInt16) (sessionOk : Bool) :
    Moves T d (d.acceptTlsConn addr port sessionOk) := by
  unfold Device.acceptTlsConn
  split
  · exact .refl
  · next c hc =>
    have hfree : (d.conns c).inUse = false := by simpa using List.find?_some hc
    split_ifs
    · exact .refl
    · exact .single (.acceptTls (c := c) _ _ addr port hfree)

theorem moves_tlsDriveHandshake (now : ℤ) (r : HandshakeResult) (answer : Bool)
    (huse : (d.conns c).inUse = true) (hshake : (d.conns c).handshaking = true) :
    Moves T d (d.tlsDriveHandshake c now r answer).1 := by
  unfold Device.tlsDriveHandshake
  split
  · exact .refl
  · cases r with
    | wouldBlock | failed => exact .refl
    | done =>
      refine .single (.handshake now _ huse hshake fun hnone => ?_)
      rw [hnone]
      rfl

theorem moves_serviceConn (now : ℤ) (inp : SlotInput) (hd : Sound T d) :
    Moves T d (d.serviceConn c now inp) := by
  unfold Device.serviceConn
  by_cases huse : (d.conns c).inUse = true
  swap
  · rw [if_pos (by simpa using huse)]
  rw [if_neg (by simpa using huse)]
  by_cases hshake : (d.conns c).handshaking = true
  · rw [if_pos hshake]
    exact moves_closeUnless (moves_tlsDriveHandshake now _ _ huse hshake)
  have hlive : (d.conns c).Live := ⟨huse, by simpa using hshake⟩
  rw [if_neg hshake]
  split_ifs
  · exact moves_closeUnless (serves_tlsServiceRx now _ hd hlive).moves
  · exact .refl
  · split
    · exact moves_closeUnless (serves_receive now _ _ hd hlive).moves
    · exact .single (.close huse)
  · exact .refl

theorem moves_keepaliveConn (now : ℤ) : Moves T d (d.keepaliveConn now c) := by
  unfold Device.keepaliveConn
  dsimp only
  split_ifs with hidle
  · exact .refl
  · refine .single (.close ?_)
    simp only [Bool.or_eq_true, not_or] at hidle
    simpa using hidle.1
  · exact .single (.steady (steady_connSend _ _))
  · exact .refl

theorem moves_serviceKeepalive (now : ℤ) : Moves T d (d.serviceKeepalive now) :=
  List.foldlRecOn (motive := fun d' => Moves T d d') _ _ .refl
    fun _ ih _ _ => ih.trans (moves_keepaliveConn now)

theorem steady_applySet {req : SetReq} (hreq : T → req.WellTyped d) (hr : d.Registry) :
    Steady T d (d.applySet req) := by
  unfold Device.applySet
  split
  · exact .refl d
  · next i hf =>
    have hi := Device.find_lt hf
    -- the request was made for the object that is found
    have htyped (hT : T) : (req.isString = true ↔ (d.obj i).kind = .string) ∧
        req.str.length ≤ 95 := by
      obtain ⟨j, hj, hono, hkind, hlen⟩ := hreq hT
      rw [hono, hr.find_ono hj] at hf
      obtain rfl := Option.some.inj hf
      exact ⟨hkind, hlen⟩
    dsimp only
    split
    · exact steady_dspApplySet req
    · split
      · exact .refl d
      · next level index hp =>
        split_ifs with hstr
        · refine steady_commitStr _ hi fun hT => ?_
          obtain ⟨hkind, hlen⟩ := htyped hT
          have hk := hkind.1 hstr
          rw [hk] at hp
          obtain ⟨rfl, rfl⟩ := Prod.mk.inj (Option.some.inj hp)
          exact ⟨hk, hlen.trans (by decide), rfl, rfl⟩
        · exact steady_commitNum _ _ hi hp fun hT hk => hstr ((htyped hT).1.2 hk)

theorem steady_drainCmdQueue (hd : Sound T d) : Steady T d d.drainCmdQueue := by
  have hempty : Steady T d { d with cmdQ := [] } :=
    .of_eq rfl rfl rfl rfl rfl (fun _ h => nomatch h) rfl
  refine hempty.trans (Steady.foldl fun d' req hreq hsteady => ?_)
  have hkeeps := (hempty.trans hsteady).keeps
  exact steady_applySet (fun hT => (hd.queue hT req hreq).keeps hkeeps)
    (hkeeps.registry hd.registry)

theorem TypedSet.wellTyped {i : ObjRef} {req : SetReq} (hi : i < d.objects.length)
    (h : TypedSet (d.obj i) req) : req.WellTyped d := by
  refine ⟨i, hi, ?_⟩
  cases h with
  | string hk => exact ⟨rfl, by simp [hk], List.length_take_le 95 _⟩
  | _ => simp_all [setNum, dspPost]

theorem moves_postSet {req : SetReq} (h : T → req.WellTyped d) : Moves T d (d.postSet req) := by
  unfold Device.postSet
  split_ifs
  · exact .single (.post h)
  · exact .refl

theorem steady_matrixSetMember (i : ObjRef) (x y : UInt16) (member : Option ObjRef) :
    Steady T d (d.matrixSetMember i x y member) := by
  unfold Device.matrixSetMember
  split
  · split_ifs
    · exact steady_modifyObj (fun _ => by rfl) fun _ => by rfl
    · exact .refl d
  · exact .refl d

/-- **Every step is a sequence of moves.** -/
theorem moves_step {inp : Input K} (hd : Sound T d) (hok : inp.Legal d) (htyped : T → inp.Typed d) :
    Moves T d (inp.run d) := by
  cases inp with
  | create call parent role => exact .single (.steady (steady_create call parent role))
  | setLabel | setSecured | setTag =>
    exact .single (.steady (steady_modifyObj (fun _ => by rfl) fun _ => by rfl))
  | matrixSetMember i x y member => exact .single (.steady (steady_matrixSetMember i x y member))
  | post i req => exact moves_postSet fun hT => (htyped hT).wellTyped hok.1
  | drain => exact .single (.steady (steady_drainCmdQueue hd))
  | accept addr port answer => exact moves_acceptConn addr port answer
  | acceptTls addr port sessionOk => exact moves_acceptTlsConn addr port sessionOk
  | service c now inp => exact moves_serviceConn now inp hd
  | keepalive now => exact moves_serviceKeepalive now

end Steps

/-! ### Runs -/

/-- The managers and the root block. -/
def startObjects : List Obj :=
  [.fresh .deviceManager 1 (ascii "DeviceManager"),
    .fresh .subscriptionManager 4 (ascii "SubscriptionManager"), .fresh .block 100 (ascii "Root")]

theorem start_eq {cfg : DeviceConfig} {net : Net} {d : Device K}
    (h : deviceStart K cfg net = some d) : ∃ e : Device K, d = { e with
      running := true
      cmdQ := []
      objects := startObjects
      nextOno := 4096
      rootBlock := some 2
      conns := fun _ => .empty
      subs := fun _ => .empty
      log := [] } := by
  have hroom := K.maxObjects_range.1
  unfold deviceStart at h
  split at h
  · simp only [Device.objectNew, List.length_nil, List.length_append, List.length_singleton,
      if_neg (by omega : ¬K.maxObjects ≤ 0), List.nil_append, Nat.reduceAdd,
      if_neg (by omega : ¬K.maxObjects ≤ 1), if_neg (by omega : ¬K.maxObjects ≤ 2)] at h
    exact ⟨d, (Option.some.inj h) ▸ rfl⟩
  · cases h

/-- The machine `M` is the server, driven by inputs that are typed if `T`. -/
structure Driven (T : Prop) (M : Machine (Device K) (Input K)) : Prop where
  init : ∀ d, M.init d → (server K).init d
  ok : ∀ d inp, M.ok d inp → inp.Legal d ∧ (T → inp.Typed d)
  step : ∀ d inp, M.step d inp = inp.run d

theorem driven_server : Driven False (server K) :=
  ⟨fun _ h => h, fun _ _ h => ⟨h, False.elim⟩, fun _ _ => rfl⟩

theorem driven_typedServer : Driven True (typedServer K) :=
  ⟨fun _ h => h, fun _ _ h => ⟨h.1, fun _ => h.2⟩, fun _ _ => rfl⟩

theorem sound_start {T : Prop} {d : Device K} (h : (server K).init d) : Sound T d := by
  obtain ⟨cfg, net, h⟩ := h
  obtain ⟨e, rfl⟩ := start_eq h
  have hroom := K.maxObjects_range.1
  have hthree {i : ℕ} (hi : i < 3) : i = 0 ∨ i = 1 ∨ i = 2 := by omega
  refine ⟨⟨le_rfl, (by decide : 3 ≤ 8).trans hroom, fun i hi => ?_, fun i hi => ?_, fun i hi => ?_,
    fun _ => rfl⟩, fun _ _ hreq => nomatch hreq⟩
  · rcases hthree hi with rfl | rfl | rfl <;> rfl
  · rcases hthree hi with rfl | rfl | rfl <;> simp [Device.obj, startObjects, Obj.fresh]
  · rcases hthree hi with rfl | rfl | rfl <;> simp [Device.obj, startObjects, Obj.fresh]

namespace Driven

variable {T : Prop} {M : Machine (Device K) (Input K)} (hM : Driven T M)
include hM

theorem sound {d : Device K} (h : M.Reach d) : Sound T d := by
  refine h.invariant (fun d h => sound_start (hM.init d h)) fun d inp _ hd hok => ?_
  rw [hM.step]
  exact (moves_step hd (hM.ok d inp hok).1 (hM.ok d inp hok).2).sound hd

/-- A run is a sequence of moves. -/
theorem moves {d d' : Device K} {l : List (Input K)} (h : M.Reach d) (hrun : M.Run d l d') :
    Moves T d d' := by
  refine hrun.rel (fun _ => .refl) (fun _ _ _ => .trans) h fun d inp hr hok => ?_
  rw [hM.step]
  exact moves_step (hM.sound hr) (hM.ok d inp hok).1 (hM.ok d inp hok).2

/-- What moves keep holds in every reachable state. -/
theorem invariant {I : Device K → Prop} (h₀ : ∀ d, (server K).init d → I d)
    (hmove : ∀ d d', Sound T d → I d → Move T d d' → I d') {d : Device K} (h : M.Reach d) :
    I d := by
  refine h.invariant (fun d h => h₀ d (hM.init d h)) fun d inp hr hI hok => ?_
  have hmoves := moves_step (hM.sound hr) (hM.ok d inp hok).1 (hM.ok d inp hok).2
  rw [hM.step]
  have hkeep : ∀ d', Moves T d d' → Sound T d' ∧ I d' := by
    intro d' h
    induction h with
    | refl => exact ⟨hM.sound hr, hI⟩
    | tail _ hone ih => exact ⟨hone.sound ih.1, hmove _ _ ih.1 ih.2 hone⟩
  exact (hkeep _ hmoves).2

end Driven

end Aes70
