import Aes70.Router.Frame
import Aes70.Router.Reads
import Aes70.Transport.Assembly
import Aes70.Transport.Outgoing

/-!
# What the server task does to a device

Between two calls of `select` the server task reads from the sockets, executes the commands in the
frames, answers them, and opens and closes connections. A preorder on devices that respects these
few operations relates the device before and after a session of the task.

* `RouteOrder` : a preorder that the router respects, whatever commands it finds.
* `SessionOrder` : a preorder that the task respects.
* `SlotOrder` : one that the task respects where it looks after a certain connection.
* `SlotOrder.serviceConn`, `SessionOrder.serviceKeepalive` : what the task does with a connection
  respects it.
-/

namespace Aes70

variable {K : Kconfig}

/-! ### The router -/

/-- A preorder on devices that respects commits, and does not see what else commands store and
record. -/
structure RouteOrder (R : Device K → Device K → Prop) : Prop extends Device.CommitOrder R where
  store : ∀ (d : Device K) objects nextOno subs disabled name role, R d { d with
    objects := objects, nextOno := nextOno, subs := subs, notificationsDisabled := disabled
    deviceName := name, deviceRole := role }
  record : ∀ d conn cmd st, R d (d.emit (.command conn cmd st))
  active : ∀ d conn, R d { d with activeConn := conn }

namespace RouteOrder

variable {R : Device K → Device K → Prop} (hR : RouteOrder R)
include hR

theorem execCommand (conn : ℕ) (cmd : Command) (call : Call K) :
    R call.dev (execCommand conn cmd call).2.dev := by
  refine execCommand_keeps (fun d st hd => hR.trans hd (hR.record d conn cmd st)) (hR.refl _) ?_
  intro i _
  exact hR.outcome hR.store (objectDispatch_outcome i cmd.level cmd.index call rfl)

theorem answer (room conn : ℕ) (cmd : Command) (params : Reader) (d : Device K) :
    R d (answer room conn cmd params d).dev :=
  hR.trans (hR.active d (some conn)) (hR.execCommand conn cmd
    ⟨{ d with activeConn := some conn }, params, Writer.init room, 0⟩)

theorem answers (room conn : ℕ) (qs : List (Command × Reader)) (d : Device K) :
    R d (answers room conn qs d).2 := by
  induction qs generalizing d with
  | nil => exact hR.refl d
  | cons q qs ih => exact hR.trans (hR.answer room conn q.1 q.2 d) (ih _)

theorem route (d : Device K) (conn : ℕ) (type : MsgType) (msgCount : UInt16) (data : Ptr)
    (dataLen : ℕ) : R d (routeCommandPdu d conn type msgCount data dataLen K.txBufferSize).1 := by
  rw [routeCommandPdu_dev _ _ _ _ _ _ _ K.txBufferSize]
  exact hR.trans (hR.answers _ conn _ d) (hR.active _ none)

end RouteOrder

/-! ### The task -/

/-- A preorder on devices that respects what the server task does: commands, frames handed to a
socket, and changes of the connection table. -/
structure SessionOrder (R : Device K → Device K → Prop) : Prop where
  refl : ∀ d, R d d
  trans : ∀ {d d' d''}, R d d' → R d' d'' → R d d''
  command : ∀ d conn {cmd params}, Carries cmd (cmd, params) →
    R d (answer K.txBufferSize conn cmd params d).dev
  send : ∀ d c {frame}, Framed K frame → R d (d.connSend c frame)
  active : ∀ d conn, R d { d with activeConn := conn }
  modifyConn : ∀ d c f, R d (d.modifyConn c f)
  closeConn : ∀ d c, R d (d.closeConn c)
  authorized : ∀ d c f granted, R d ((d.modifyConn c f).emit (.authorized c granted))

theorem carries_mem {n : ℕ} {rd : Reader} : ∀ q ∈ commands n rd, Carries q.1 q := by
  have h := carries_commands n rd
  rw [List.forall₂_map_left_iff] at h
  intro q hq
  obtain ⟨k, hk, rfl⟩ := List.getElem_of_mem hq
  exact (List.forall₂_iff_get.1 h).2 k hk hk

/-- The same for what the task does with the connection in slot `c`. -/
structure SlotOrder (c : Fin K.maxConnections) (R : Device K → Device K → Prop) : Prop where
  refl : ∀ d, R d d
  trans : ∀ {d d' d''}, R d d' → R d' d'' → R d d''
  command : ∀ d conn {cmd params}, Carries cmd (cmd, params) →
    R d (answer K.txBufferSize conn cmd params d).dev
  send : ∀ d {frame}, Framed K frame → R d (d.connSend c frame)
  active : ∀ d conn, R d { d with activeConn := conn }
  modifyConn : ∀ d f, R d (d.modifyConn c f)
  closeConn : ∀ d, R d (d.closeConn c)
  authorized : ∀ d f granted, R d ((d.modifyConn c f).emit (.authorized c granted))

namespace SlotOrder

variable {R : Device K → Device K → Prop} {c : Fin K.maxConnections} (hR : SlotOrder c R)
include hR

theorem answers {qs : List (Command × Reader)} (h : ∀ q ∈ qs, Carries q.1 q) (conn : ℕ)
    (d : Device K) : R d (answers K.txBufferSize conn qs d).2 := by
  induction qs generalizing d with
  | nil => exact hR.refl d
  | cons q qs ih =>
    have hone : R d (answer K.txBufferSize conn q.1 q.2 d).dev :=
      hR.command d conn (h q List.mem_cons_self)
    exact hR.trans hone (ih (fun q' hq' => h q' (List.mem_cons_of_mem _ hq')) _)

theorem route (d : Device K) (conn : ℕ) (type : MsgType) (msgCount : UInt16) (data : Ptr)
    (dataLen : ℕ) :
    R d (routeCommandPdu d conn type msgCount data dataLen K.txBufferSize).1 := by
  rw [routeCommandPdu_dev _ _ _ _ _ _ _ K.txBufferSize]
  exact hR.trans (hR.answers carries_mem conn d) (hR.active _ none)

theorem handleFrame (f : Frame) (mem : Ptr) (d : Device K) : R d (d.handleFrame c f mem) := by
  unfold Device.handleFrame
  by_cases hcmd : f.mtype = MsgType.cmd.code
  · rw [if_pos hcmd]
    dsimp only
    have hnone : (routeCommandPdu d c .cmd f.mcount (Ptr.ofBytes f.body mem) f.body.length
        K.txBufferSize).2 = [] := rfl
    rw [if_pos hnone]
    exact hR.route d c _ _ _ _
  rw [if_neg hcmd]
  by_cases hrrq : f.mtype = MsgType.cmdRrq.code
  · rw [if_pos hrrq]
    dsimp only
    split_ifs with hnone
    · exact hR.route d c _ _ _ _
    · exact hR.trans (hR.route d c _ _ _ _) (hR.send _ (framed_response c d _ _ _ hnone))
  rw [if_neg hrrq]
  split_ifs
  · exact hR.trans (hR.modifyConn d _) (hR.send _ (framed_keepalive K _))
  · exact hR.refl d

/-! ### Connections -/

theorem processRx (junk : Ptr) (d : Device K) : R d (d.processRx c junk).1 := by
  have hloop : R d (rxLoop K.rxBufferSize (Device.handleFrame c) junk (d.conns c).rx d).1 :=
    rxLoop_keeps (fun f mem _ hs => hR.trans hs (hR.handleFrame f mem _)) _ (hR.refl d)
  exact hR.trans hloop (hR.modifyConn _ fun e =>
    { e with rx := (rxLoop K.rxBufferSize (Device.handleFrame c) junk (d.conns c).rx d).2.1 })

theorem receive (now : ℤ) (bs : Bytes) (junk : Ptr) (d : Device K) :
    R d (d.receive c now bs junk).1 := by
  unfold Device.receive
  dsimp only
  split_ifs
  · exact hR.refl d
  · exact hR.trans (hR.modifyConn d _) (hR.processRx junk _)

theorem tlsServiceRx (now : ℤ) (rs : List ReadResult) (d : Device K) :
    R d (Device.tlsServiceRx c now rs d).1 := by
  induction rs generalizing d with
  | nil => exact hR.refl d
  | cons r rs ih =>
    cases r with
    | wouldBlock => exact hR.refl d
    | data bs junk =>
      have hone : R d (d.receive c now bs junk).1 := hR.receive now bs junk d
      unfold Device.tlsServiceRx
      dsimp only
      split_ifs
      · exact hone
      · exact hR.trans hone (ih _)
      · exact hone

theorem closeUnless {r : Device K × Bool} (h : R d r.1) : R d (Device.closeUnless c r) := by
  unfold Device.closeUnless
  split_ifs
  · exact h
  · exact hR.trans h (hR.closeConn r.1)

theorem serviceConn (now : ℤ) (inp : SlotInput) (d : Device K) :
    R d (d.serviceConn c now inp) := by
  have hshake : R d (d.tlsDriveHandshake c now inp.handshake inp.answer).1 := by
    unfold Device.tlsDriveHandshake
    split
    · exact hR.refl d
    · cases inp.handshake with
      | wouldBlock | failed => exact hR.refl d
      | done => exact hR.authorized d _ _
  unfold Device.serviceConn
  split_ifs
  · exact hR.refl d
  · exact hR.closeUnless hshake
  · exact hR.closeUnless (hR.tlsServiceRx now _ d)
  · exact hR.refl d
  · split
    · exact hR.closeUnless (hR.receive now _ _ d)
    · exact hR.closeConn d
  · exact hR.refl d

end SlotOrder

namespace SessionOrder

variable {R : Device K → Device K → Prop} (hR : SessionOrder R)
include hR

theorem slot (c : Fin K.maxConnections) : SlotOrder c R where
  refl := hR.refl
  trans := hR.trans
  command := hR.command
  send d _ h := hR.send d c h
  active := hR.active
  modifyConn d f := hR.modifyConn d c f
  closeConn d := hR.closeConn d c
  authorized d f granted := hR.authorized d c f granted

theorem serviceConn {c : Fin K.maxConnections} (now : ℤ) (inp : SlotInput) (d : Device K) :
    R d (d.serviceConn c now inp) := (hR.slot c).serviceConn now inp d

theorem serviceKeepalive (now : ℤ) (d : Device K) : R d (d.serviceKeepalive now) :=
  List.foldlRecOn (motive := R d) _ _ (hR.refl d) fun d' hd c _ => hR.trans hd (by
    unfold Device.keepaliveConn
    dsimp only
    split_ifs
    · exact hR.refl d'
    · exact hR.closeConn d' c
    · exact hR.send d' c (framed_keepalive K _)
    · exact hR.refl d')

end SessionOrder

end Aes70
