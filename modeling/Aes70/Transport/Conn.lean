import Aes70.Transport.Rx

/-!
# Connections

The life of a connection slot in `aes70_transport.c`: accept, TLS handshake, reception, keep-alive
supervision and close. The outcomes of the socket and TLS calls and the answer of the `authorize`
callback are arguments.

* `Device.closeConn` : the one way a slot is freed.
* `Device.serviceConn` : the part of the loop of `server_task` that looks after one slot.
* `Device.serviceKeepalive` : drop silent peers, send heartbeats.

The TLS parts are those of a build with `CONFIG_AES70_ENABLE_TLS`; without it no connection ever
has `tls` set.
-/

namespace Aes70

variable {K : Kconfig}

namespace Device

/-! ### Close -/

/-- `aes70_locks_drop_conn`. -/
def locksDropConn (d : Device K) (c : ℕ) : Device K :=
  { d with objects := d.objects.map fun o =>
      if o.lockOwner = some c then { o with lockState := .none, lockOwner := none } else o }

/-- `close_conn`. -/
def closeConn (d : Device K) (c : Fin K.maxConnections) : Device K :=
  if !(d.conns c).inUse then d else
    ((((d.subscriptionsDropConn c).locksDropConn c).modifyConn c fun _ => .empty).emit (.closed c))

/-! ### Accept -/

/-- The first connection slot not in use. -/
def freeConn (d : Device K) : Option (Fin K.maxConnections) :=
  (List.finRange K.maxConnections).find? fun c => !(d.conns c).inUse

/-- `accept_conn`: the privilege of a plaintext session is what the `authorize` callback answers,
and none without a callback. -/
def acceptConn (d : Device K) (addr : Bytes) (port : UInt16) (answer : Bool) : Device K :=
  match d.freeConn with
  | none => d
  | some c =>
    let now := d.net.clock d.log
    let granted := if d.cfg.authorize then answer else false
    ((d.modifyConn c fun _ =>
      { Conn.empty with
        inUse := true, lastRxUs := now, lastTxUs := now, addr, port, privileged := granted }).emit
      (.accepted c false)).emit (.authorized c granted)

/-- `accept_tls_conn`: start a handshake, unless the TLS session cannot be set up. -/
def acceptTlsConn (d : Device K) (addr : Bytes) (port : UInt16) (sessionOk : Bool) : Device K :=
  match d.freeConn with
  | none => d
  | some c =>
    if !sessionOk then d else
      let now := d.net.clock d.log
      (d.modifyConn c fun _ =>
        { Conn.empty with
          inUse := true, tls := true, secure := true, handshaking := true
          lastRxUs := now, lastTxUs := now
          hsDeadlineUs := now + K.tlsHandshakeTimeoutMs * 1000, addr, port }).emit (.accepted c true)

/-! ### TLS handshake -/

end Device

/-- The result of `esp_tls_server_session_continue_async`. -/
inductive HandshakeResult
  | wouldBlock | done | failed
deriving DecidableEq

namespace Device

/-- `tls_drive_handshake`; `false` drops the connection. A completed handshake takes the privilege
decision. -/
def tlsDriveHandshake (d : Device K) (c : Fin K.maxConnections) (now : ℤ) (r : HandshakeResult)
    (answer : Bool) : Device K × Bool :=
  if (d.conns c).hsDeadlineUs < now then (d, false) else
    match r with
    | .wouldBlock => (d, true)
    | .failed => (d, false)
    | .done =>
      let granted := if d.cfg.authorize then answer else d.cfg.clientCaPem
      ((d.modifyConn c fun e =>
        { e with handshaking := false, lastRxUs := now, privileged := granted }).emit
        (.authorized c granted), true)

/-! ### Reception -/

/-- Append what a read call delivered, at most the room of the buffer, and process it. A call that
delivers nothing found the connection closed or broken. -/
def receive (d : Device K) (c : Fin K.maxConnections) (now : ℤ) (bs : Bytes) (junk : Ptr) :
    Device K × Bool :=
  let bs := bs.take (K.rxBufferSize - (d.conns c).rx.length)
  if bs = [] then (d, false) else
    (d.modifyConn c fun e => { e with rx := e.rx ++ bs, lastRxUs := now }).processRx c junk

end Device

/-- The outcome of a read call, with the memory that lies behind the filled part of the buffer. -/
inductive ReadResult
  /-- These bytes; none if the peer closed or the call failed. -/
  | data (bs : Bytes) (junk : Ptr)
  /-- A TLS call that has nothing to deliver yet. -/
  | wouldBlock

namespace Device

/-- `tls_service_rx`: read until the TLS layer has nothing buffered. -/
def tlsServiceRx (c : Fin K.maxConnections) (now : ℤ) :
    List ReadResult → Device K → Device K × Bool
  | [], d => (d, true)
  | .wouldBlock :: _, d => (d, true)
  | .data bs junk :: rs, d =>
    let (d, keep) := d.receive c now bs junk
    if !keep then (d, false)
    else if (d.conns c).inUse && decide ((d.conns c).rx.length < K.rxBufferSize) then
      tlsServiceRx c now rs d
    else (d, true)

/-! ### The server task -/

end Device

/-- What the environment offers one connection slot in an iteration of `server_task`. -/
structure SlotInput where
  /-- The socket is readable (`FD_ISSET`). -/
  readable : Bool
  handshake : HandshakeResult
  /-- What `authorize` answers if it is asked. -/
  answer : Bool
  /-- The results of the read calls. -/
  reads : List ReadResult

namespace Device

/-- Close the connection unless it is to be kept. -/
def closeUnless (c : Fin K.maxConnections) (r : Device K × Bool) : Device K :=
  if r.2 then r.1 else r.1.closeConn c

/-- The body of the loop of `server_task` over the connection slots. -/
def serviceConn (d : Device K) (c : Fin K.maxConnections) (now : ℤ) (inp : SlotInput) : Device K :=
  if !(d.conns c).inUse then d
  else if (d.conns c).handshaking then
    closeUnless c (d.tlsDriveHandshake c now inp.handshake inp.answer)
  else if (d.conns c).tls then
    if inp.readable then closeUnless c (tlsServiceRx c now inp.reads d) else d
  else if inp.readable then
    match inp.reads with
    | .data bs junk :: _ => closeUnless c (d.receive c now bs junk)
    | _ => d.closeConn c
  else d

/-- The body of the loop of `service_keepalive`. -/
def keepaliveConn (now : ℤ) (d : Device K) (c : Fin K.maxConnections) : Device K :=
  let e := d.conns c
  if !e.inUse || e.heartbeatMs == 0 then d else
    let hbUs : ℤ := e.heartbeatMs.toNat * 1000
    if hbUs * K.keepaliveTimeoutFactor < now - e.lastRxUs then d.closeConn c
    else if hbUs ≤ now - e.lastTxUs then d.sendKeepalive c
    else d

/-- `service_keepalive`. -/
def serviceKeepalive (d : Device K) (now : ℤ) : Device K :=
  (List.finRange K.maxConnections).foldl (keepaliveConn now) d

end Device

end Aes70
