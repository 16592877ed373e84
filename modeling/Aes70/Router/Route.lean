import Aes70.Router.Dispatch

/-!
# The command router

`append_response` and `aes70_route_command_pdu` of `aes70_device.c`: the body of a `Cmd` or
`CmdRrq` PDU is a sequence of commands, executed in order; for a `CmdRrq` the responses are
collected in one PDU.

* `nextCommand` : the head of the parsing loop, one command with a reader for its parameters.
* `execCommand` : look up the target, dispatch; `execCommand_keeps` : what is true after it.
* `routeLoop` : the loop over the commands.
* `routeCommandPdu` : header, loop, final back-patching.
-/

namespace Aes70

variable {K : Kconfig}

/-- Execute one command of connection `conn`: find the target and dispatch. The command is recorded
with its status. -/
def execCommand (conn : ℕ) (cmd : Command) (c : Call K) : Status × Call K :=
  let (st, c) := match c.dev.find cmd.target with
    | none => (Status.badOno, c)
    | some i => objectDispatch i cmd.level cmd.index c
  (st, { c with dev := c.dev.emit (.command conn cmd st) })

section Execution

variable {conn : ℕ} {cmd : Command} {c : Call K} {i : ObjRef}

/-- A command to a number that no object has. -/
theorem execCommand_of_none (hf : c.dev.find cmd.target = none) : execCommand conn cmd c =
    (.badOno, { c with dev := c.dev.emit (.command conn cmd .badOno) }) := by
  simp only [execCommand, hf]

/-- A command to an object is the call of its method, and a record. -/
theorem execCommand_of_find (hf : c.dev.find cmd.target = some i) : execCommand conn cmd c =
    ((objectDispatch i cmd.level cmd.index c).1,
      { (objectDispatch i cmd.level cmd.index c).2 with
        dev := (objectDispatch i cmd.level cmd.index c).2.dev.emit
          (.command conn cmd (objectDispatch i cmd.level cmd.index c).1) }) := by
  simp only [execCommand, hf]

/-- What method calls and records keep, commands keep. -/
theorem execCommand_keeps {P : Device K → Prop}
    (hrecord : ∀ d st, P d → P (d.emit (.command conn cmd st))) (hdev : P c.dev)
    (hcall : ∀ i, c.dev.find cmd.target = some i →
      P (objectDispatch i cmd.level cmd.index c).2.dev) : P (execCommand conn cmd c).2.dev := by
  cases hf : c.dev.find cmd.target with
  | none =>
    rw [execCommand_of_none hf]
    exact hrecord _ _ hdev
  | some i =>
    rw [execCommand_of_find hf]
    exact hrecord _ _ (hcall i hf)

end Execution

/-- `append_response`: dispatch and append the Response message, size(4) | handle(4) | status(1) |
paramCount(1) | params. -/
def appendResponse (conn : ℕ) (cmd : Command) (params : Reader) (d : Device K)
    (resp : Writer) : Device K × Reader × Writer :=
  let msgAt := resp.off
  let resp := resp.fields [.u32 0, .u32 cmd.handle]
  let statusAt := resp.off
  let resp := resp.field (.u8 0)
  let pcAt := resp.off
  let resp := resp.field (.u8 0)
  let (st, c) := execCommand conn cmd ⟨d, params, resp, 0⟩
  -- a failed command gives back what its handler wrote
  let resp := if st ≠ .ok ∧ !c.wr.err then c.wr.rewind (pcAt + 1) else c.wr
  let pc := if st ≠ .ok then 0 else c.pc
  let resp := if resp.err then resp else
    ((resp.patch statusAt [st.code]).patch pcAt [pc]).patch msgAt
      (wr32 (UInt32.ofNat (resp.off - msgAt)))
  (c.dev, c.rd, resp)

/-- The state of the router loop. -/
structure Router (K : Kconfig) where
  dev : Device K
  /-- Reader over the PDU body. -/
  rd : Reader
  resp : Writer

/-- A command found in the PDU body. -/
structure Parsed where
  cmd : Command
  /-- Reader over the parameters. -/
  params : Reader
  /-- The body reader, moved to the next command. -/
  rest : Reader

/-- The head of the loop: parse one command; `none` ends the loop. A command has at least 17 bytes
(size, handle, ONo, method id, parameter count) and must fit in what is left of the body. -/
def nextCommand (rd : Reader) : Option Parsed :=
  let (size, rd) := Read.u32 rd
  let bodyAt := rd.off
  if rd.err || decide (size.toNat < 17) || decide (rd.len - bodyAt < size.toNat - 4) then none else
    let next := bodyAt + (size.toNat - 4)
    let (handle, rd) := Read.u32 rd
    let (target, rd) := Read.u32 rd
    let (level, rd) := Read.u16 rd
    let (index, rd) := Read.u16 rd
    let (pc, rd) := Read.u8 rd
    if rd.err then none else
      let paramsLen := min (size.toNat - 17) (rd.len - rd.off)
      let pin := Reader.init (rd.p.add rd.off) paramsLen
      some {
        cmd := ⟨handle, target, level, index, pc, pin.p.read paramsLen⟩
        params := pin
        rest := { rd with off := min next rd.len } }

/-- The body of the loop for a parsed command. -/
def routeCommand (conn : ℕ) (wantResp : Bool) (p : Parsed) (s : Router K) : Router K :=
  let d := { s.dev with activeConn := some conn }
  if wantResp then
    let (dev, _, resp) := appendResponse conn p.cmd p.params d s.resp
    { dev, rd := p.rest, resp }
  else
    -- a plain Cmd writes into a scratch buffer of 64 bytes that is thrown away
    let (_, c) := execCommand conn p.cmd ⟨d, p.params, Writer.init 64, 0⟩
    { s with dev := c.dev, rd := p.rest }

/-- The loop over the `n` commands still announced. -/
def routeLoop (conn : ℕ) (wantResp : Bool) : ℕ → Router K → Router K
  | 0, s => s
  | n + 1, s =>
    match nextCommand s.rd with
    | none => s
    | some p => routeLoop conn wantResp n (routeCommand conn wantResp p s)

/-- The response header: sync, version, PduSize, type, MessageCount. -/
def responseHeader (msgCount : UInt16) : List Field :=
  [.u8 ocp1SyncVal, .u16 ocp1ProtoVersion, .u32 0, .u8 MsgType.rsp.code, .u16 msgCount]

/-- Offset of the PduSize field. -/
def pdusizeAt : ℕ := 3

/-- `aes70_route_command_pdu`: the device it leaves, and the response PDU (`[]` for length 0). -/
def routeCommandPdu (d : Device K) (conn : ℕ) (type : MsgType) (msgCount : UInt16) (data : Ptr)
    (dataLen outCap : ℕ) : Device K × Bytes :=
  let wantResp := decide (type = .cmdRrq)
  let resp := Writer.init outCap
  let resp := if wantResp then resp.fields (responseHeader msgCount) else resp
  let s := routeLoop conn wantResp msgCount.toNat ⟨d, Reader.init data dataLen, resp⟩
  let d := { s.dev with activeConn := none }
  if !wantResp then (d, [])
  else if s.resp.err then (d, [])
  else (d, (s.resp.patch pdusizeAt (wr32 (UInt32.ofNat (s.resp.off - ocp1PdusizePrefix)))).buf)

end Aes70
