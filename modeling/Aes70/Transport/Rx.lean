import Aes70.Router.Route
import Aes70.Stream.Reassembly

/-!
# Frame assembly and frame handling

`send_keepalive`, `handle_frame` and `process_rx` of `aes70_transport.c`.

* `rxHead` : the head of the loop of `process_rx` on the bytes not yet consumed.
* `processRx` : the whole loop over any frame handler, with the final compaction.
* `Device.handleFrame` : the frame handler of the device.
-/

namespace Aes70

variable {K : Kconfig}

/-! ### Assembly -/

/-- What a complete frame is handed over as. -/
structure Frame where
  mtype : UInt8
  mcount : UInt16
  body : Bytes
deriving DecidableEq

/-- `frame_total`: `PduSize + 1` in the 32-bit `size_t` of the targets. -/
def frameTotal (bs : Bytes) : ℕ := szAdd (rd32 ((bs.drop 3).take 4)).toNat ocp1PdusizePrefix

/-- One turn of the loop of `process_rx`, for a receive buffer of `size` bytes: wait for the rest of
a header or a frame, drop the connection, or handle a frame. -/
def rxHead (size : ℕ) (bs : Bytes) : Head Frame :=
  if bs.length < ocp1HeaderLen then .wait
  else if bs.getD 0 0 ≠ ocp1SyncVal then .drop
  else if frameTotal bs < ocp1HeaderLen ∨ size < frameTotal bs then .drop
  else if bs.length < frameTotal bs then .wait
  else .frame (frameTotal bs)
    { mtype := bs.getD 7 0
      mcount := rd16 ((bs.drop 8).take 2)
      body := (bs.take (frameTotal bs)).drop ocp1HeaderLen }

theorem rxHead_frame_pos {size : ℕ} {bs : Bytes} {n : ℕ} {f : Frame}
    (h : rxHead size bs = .frame n f) : 0 < n ∧ n ≤ bs.length := by
  unfold rxHead ocp1HeaderLen at h
  split_ifs at h
  simp only [Head.frame.injEq] at h
  omega

/-- The loop of `process_rx` on the unconsumed bytes `bs`, for any frame handler. The handler also
gets the memory that follows the frame body. The result is the state, the bytes left over, and
`false` when the connection is to be dropped. -/
def rxLoop {σ : Type} (size : ℕ) (handle : Frame → Ptr → σ → σ) (junk : Ptr) (bs : Bytes) (s : σ) :
    σ × Bytes × Bool :=
  match h : rxHead size bs with
  | .wait => (s, bs, true)
  | .drop => (s, bs, false)
  | .frame n f =>
    have : 0 < bs.length ∧ 0 < n := by
      have := rxHead_frame_pos h
      omega
    rxLoop size handle junk (bs.drop n) (handle f (Ptr.ofBytes (bs.drop n) junk) s)
termination_by bs.length

/-- `process_rx` on the filled part of the receive buffer: the state, the compacted buffer, and
whether the connection is kept. A buffer still full after the loop is given up. -/
def processRx {σ : Type} (size : ℕ) (handle : Frame → Ptr → σ → σ) (junk : Ptr) (rx : Bytes)
    (s : σ) : σ × Bytes × Bool :=
  let (s, rx, keep) := rxLoop size handle junk rx s
  (s, rx, keep && decide (rx.length ≠ size))

/-! ### Handling -/

/-- The frame `send_keepalive` builds. -/
def keepaliveFrame (c : Conn) : Bytes :=
  let width : UInt32 := if c.kaWidth = 2 then 2 else 4
  ((Writer.init (ocp1HeaderLen + 4)).fields
    [.u8 ocp1SyncVal, .u16 ocp1ProtoVersion, .u32 (9 + width), .u8 MsgType.keepalive.code, .u16 1,
      if width = 2 then .u16 (c.heartbeatMs / 1000).toUInt16 else .u32 c.heartbeatMs]).buf

namespace Device

/-- `send_keepalive`. -/
def sendKeepalive (d : Device K) (c : Fin K.maxConnections) : Device K :=
  d.connSend c (keepaliveFrame (d.conns c))

/-- The heartbeat a keep-alive frame of the peer negotiates. -/
def keepaliveReceived (body : Bytes) (e : Conn) : Conn :=
  if body.length = 2 then { e with heartbeatMs := (rd16 body).toUInt32 * 1000, kaWidth := 2 }
  else if 4 ≤ body.length then { e with heartbeatMs := rd32 (body.take 4), kaWidth := 4 }
  else e

/-- `handle_frame`. -/
def handleFrame (c : Fin K.maxConnections) (f : Frame) (mem : Ptr) (d : Device K) : Device K :=
  let command (type : MsgType) : Device K :=
    let (d, resp) := routeCommandPdu d c type f.mcount (Ptr.ofBytes f.body mem) f.body.length
      K.txBufferSize
    if resp = [] then d else d.connSend c resp
  if f.mtype = MsgType.cmd.code then command .cmd
  else if f.mtype = MsgType.cmdRrq.code then command .cmdRrq
  else if f.mtype = MsgType.keepalive.code then
    (d.modifyConn c (keepaliveReceived f.body)).sendKeepalive c
  else d

/-- `process_rx` for a connection; `junk` is the memory behind the filled part of its buffer. -/
def processRx (c : Fin K.maxConnections) (junk : Ptr) (d : Device K) : Device K × Bool :=
  let (d, rx, keep) := Aes70.processRx K.rxBufferSize (handleFrame c) junk (d.conns c).rx d
  (d.modifyConn c fun e => { e with rx }, keep)

end Device

end Aes70
