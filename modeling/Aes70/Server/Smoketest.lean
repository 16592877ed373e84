import Aes70.Router.Batch
import Aes70.Server.Dialogue

/-!
# A controller and the device

`ocp1_smoketest.py` sends a command and reads PDUs until a response comes. It does not look at the
handle in the response: it relies on the device to answer in order, and every command once.

* `Smoketest.call` : the loop in which it waits.
* `Smoketest.Rounds` : the frames of a session, cut behind each response.
* `InTurn` : commands that are executed one after the other, whatever happens elsewhere.
* `calls_of_reach` : what its calls return are the answers to its commands, with the notifications
  of each round.
-/

namespace Aes70

variable {K : Kconfig}

/-! ### The controller -/

namespace Smoketest

/-- What a method that reads from the socket comes to: it waits for more, it raises, or it returns,
with the bytes behind those it has read. -/
inductive Got (α : Type)
  | waits
  | raises
  | returns (a : α) (rest : Bytes)
deriving DecidableEq

def Got.bind {α β : Type} : Got α → (α → Bytes → Got β) → Got β
  | .waits, _ => .waits
  | .raises, _ => .raises
  | .returns a rest, f => f a rest

/-- `_rxall`. -/
def rxall (n : ℕ) (bs : Bytes) : Got Bytes :=
  if n ≤ bs.length then .returns (bs.take n) (bs.drop n) else .waits

/-- `_read_pdu`: the message type, and what follows the header. -/
def readPdu (bs : Bytes) : Got (UInt8 × Bytes) :=
  (rxall 10 bs).bind fun header rest =>
    if header.getD 0 0 ≠ 0x3B then .raises else
      (rxall ((rd32 ((header.drop 3).take 4)).toNat + 1 - 10) rest).bind fun data rest =>
        .returns (header.getD 7 0, data) rest

/-- What `call` returns: `status`, `paramCount`, `payload`. -/
structure Reply where
  status : UInt8
  paramCount : UInt8
  payload : Bytes
deriving DecidableEq

/-- The loop of `call`, with the notifications it has come across. -/
def await : ℕ → List Bytes → Bytes → Got (Reply × List Bytes)
  | 0, _, _ => .waits
  | n + 1, notifications, bs => (readPdu bs).bind fun (mtype, data) rest =>
    if mtype = 3 then
      if data.length < 10 then .raises
      else .returns (⟨data.getD 8 0, data.getD 9 0,
        (data.take (rd32 (data.take 4)).toNat).drop 10⟩, notifications) rest
    else if mtype = 2 then await n (notifications ++ [data]) rest
    else await n notifications rest

/-- What `call` makes of the bytes that come in. Every turn of the loop takes some. -/
def call (bs : Bytes) : Got (Reply × List Bytes) := await (bs.length + 1) [] bs

/-- The PDU that `call` sends. -/
def pack (cmd : Command) : Bytes :=
  let msg := wr32 cmd.handle ++ (wr32 cmd.target ++ (wr16 cmd.level ++ (wr16 cmd.index ++
    ([cmd.paramCount] ++ cmd.params))))
  let msg := wr32 (UInt32.ofNat (msg.length + 4)) ++ msg
  [0x3B] ++ (wr16 4 ++ (wr32 (UInt32.ofNat (9 + msg.length)) ++ ([1] ++ (wr16 1 ++ msg))))

/-- `n` calls, as far as they return. -/
def calls : ℕ → Bytes → List (Reply × List Bytes)
  | 0, _ => []
  | n + 1, bs =>
    match call bs with
    | .returns r rest => r :: calls n rest
    | _ => []

/-! ### Reading -/

/-- What the controller makes of a response. -/
def Reply.of (r : Response) : Reply := ⟨r.status.code, r.paramCount, r.params⟩

/-- The notifications among some frames, without their headers. -/
def notes (frames : List Bytes) : List Bytes :=
  (frames.filter fun f => f[7]? = some MsgType.ntf.code).map (List.drop 10)

/-- The frames are cut behind each response: these are the responses, each with the frames between
the one before it and itself. -/
inductive Rounds : List Bytes → List (Response × List Bytes) → Prop
  | rest {frames} : (∀ f ∈ frames, isResponse f = false) → Rounds frames []
  | round {pre frames rounds} (r : Response) : (∀ f ∈ pre, isResponse f = false) →
      Rounds frames rounds → Rounds (pre ++ responsePdu 1 [r] :: frames) ((r, pre) :: rounds)

section Reading

variable {type : MsgType} {count : UInt16} {body rest : Bytes} {n : ℕ} {ns frames : List Bytes}
  {r : Response}

/-- A PDU of the device is read as what it is. -/
theorem readPdu_outgoingPdu (h : (outgoingPdu type count body).length < 2 ^ 32) (rest : Bytes) :
    readPdu (outgoingPdu type count body ++ rest) = .returns (type.code, body) rest := by
  rw [length_outgoingPdu] at h
  have hsplit : outgoingPdu type count body ++ rest = ([ocp1SyncVal] ++ (wr16 ocp1ProtoVersion ++
      (wr32 (UInt32.ofNat (9 + body.length)) ++ ([type.code] ++ wr16 count)))) ++
        (body ++ rest) := by
    simp only [outgoingPdu, List.append_assoc]
  have hhead : ([ocp1SyncVal] ++ (wr16 ocp1ProtoVersion ++ (wr32 (UInt32.ofNat (9 + body.length)) ++
      ([type.code] ++ wr16 count)))).length = 10 := by simp
  have hten : rxall 10 (outgoingPdu type count body ++ rest) = .returns ([ocp1SyncVal] ++
      (wr16 ocp1ProtoVersion ++ (wr32 (UInt32.ofNat (9 + body.length)) ++
        ([type.code] ++ wr16 count)))) (body ++ rest) := by
    rw [hsplit, rxall, if_pos (by rw [List.length_append, hhead]; omega), List.take_left' hhead,
      List.drop_left' hhead]
  have hsize : (rd32 ((([ocp1SyncVal] ++ (wr16 ocp1ProtoVersion ++
      (wr32 (UInt32.ofNat (9 + body.length)) ++ ([type.code] ++ wr16 count)))).drop 3).take
        4)).toNat + 1 - 10 = body.length := by
    rw [← List.append_assoc, List.drop_left' (by simp), List.take_left' (length_wr32 _),
      rd32_wr32, UInt32.toNat_ofNat_of_lt' (show _ < 2 ^ 32 by omega)]
    omega
  have hbody : rxall body.length (body ++ rest) = .returns body rest := by
    rw [rxall, if_pos (by rw [List.length_append]; omega), List.take_left, List.drop_left]
  rw [readPdu, hten, Got.bind, hsize, hbody]
  rfl

theorem await_ntf (h : (outgoingPdu .ntf count body).length < 2 ^ 32) :
    await (n + 1) ns (outgoingPdu .ntf count body ++ rest) = await n (ns ++ [body]) rest := by
  rw [await, readPdu_outgoingPdu h]
  rfl

theorem await_keepalive (h : (outgoingPdu .keepalive count body).length < 2 ^ 32) :
    await (n + 1) ns (outgoingPdu .keepalive count body ++ rest) = await n ns rest := by
  rw [await, readPdu_outgoingPdu h]
  rfl

theorem responsePdu_single (count : UInt16) (r : Response) :
    responsePdu count [r] = outgoingPdu .rsp count r.encode := by
  simp [responsePdu, outgoingPdu]

/-- **A response** ends the wait. -/
theorem await_response (h : (responsePdu count [r]).length < 2 ^ 32) :
    await (n + 1) ns (responsePdu count [r] ++ rest) = .returns (.of r, ns) rest := by
  rw [responsePdu_single] at h ⊢
  have hstep : await (n + 1) ns (outgoingPdu .rsp count r.encode ++ rest) =
      if r.encode.length < 10 then .raises
      else .returns (⟨r.encode.getD 8 0, r.encode.getD 9 0,
        (r.encode.take (rd32 (r.encode.take 4)).toNat).drop 10⟩, ns) rest := by
    rw [await, readPdu_outgoingPdu h]
    rfl
  rw [length_outgoingPdu, Response.length_encode] at h
  have hlong : ¬r.encode.length < 10 := by
    rw [Response.length_encode]
    omega
  have hsize : (rd32 (r.encode.take 4)).toNat = r.encode.length := by
    rw [Response.length_encode, Response.encode, List.take_left' (length_wr32 _), rd32_wr32,
      UInt32.toNat_ofNat_of_lt' (show _ < 2 ^ 32 by omega)]
  have hstatus : r.encode.getD 8 0 = r.status.code := rfl
  have hcount : r.encode.getD 9 0 = r.paramCount := rfl
  have hparams : r.encode.drop 10 = r.params := rfl
  rw [hstep, if_neg hlong, hsize, List.take_length, hstatus, hcount, hparams]
  rfl

theorem notes_ntf : notes (outgoingPdu .ntf count body :: frames) = body :: notes frames := by
  have hdrop : (outgoingPdu .ntf count body).drop 10 = body := drop_outgoingPdu
  have htype : decide ((outgoingPdu .ntf count body)[7]? = some MsgType.ntf.code) = true := by
    rw [type_outgoingPdu, decide_eq_true_eq]
  rw [notes, List.filter_cons, if_pos htype, List.map_cons, hdrop]
  rfl

theorem notes_of_ne (hne : type ≠ .ntf) :
    notes (outgoingPdu type count body :: frames) = notes frames := by
  have htype : ¬decide ((outgoingPdu type count body)[7]? = some MsgType.ntf.code) = true := by
    rw [type_outgoingPdu, decide_eq_true_eq]
    revert hne
    cases type <;> decide
  rw [notes, List.filter_cons, if_neg htype]
  rfl

/-- What else the device sends is passed over. -/
theorem await_quiet (h : ∀ f ∈ frames, PduOf [.ntf, .keepalive] f) :
    await (frames.length + n) ns (frames.flatten ++ rest) = await n (ns ++ notes frames) rest := by
  induction frames generalizing ns with
  | nil => simp [notes]
  | cons f frames ih =>
    obtain ⟨hf, hframes⟩ := List.forall_mem_cons.1 h
    obtain ⟨type, htype, count, body, rfl, hlen⟩ := hf
    have hboth : type = .ntf ∨ type = .keepalive := by simpa using htype
    have hfuel : (outgoingPdu type count body :: frames).length + n = frames.length + n + 1 := by
      rw [List.length_cons]
      omega
    rw [hfuel, List.flatten_cons, List.append_assoc]
    obtain rfl | rfl := hboth
    · rw [await_ntf hlen, ih hframes, notes_ntf, List.append_assoc, List.singleton_append]
    · rw [await_keepalive hlen, ih hframes, notes_of_ne (by decide)]

end Reading

/-! ### Calls -/

section Calls

variable {frames : List Bytes} {rs : List Response} {rounds : List (Response × List Bytes)}

theorem length_le_flatten (h : ∀ f ∈ frames, f ≠ []) : frames.length ≤ frames.flatten.length := by
  induction frames with
  | nil => exact le_rfl
  | cons f frames ih =>
    obtain ⟨hf, hframes⟩ := List.forall_mem_cons.1 h
    have hpos := List.length_pos_of_ne_nil hf
    have hrest := ih hframes
    rw [List.length_cons, List.flatten_cons, List.length_append]
    omega

/-- **A call** that finds a response returns it, with the notifications before it. -/
theorem call_of_response {pre : List Bytes} {r : Response} (rest : Bytes)
    (hpre : ∀ f ∈ pre, PduOf [.ntf, .keepalive] f) (h : (responsePdu 1 [r]).length < 2 ^ 32) :
    call (pre.flatten ++ (responsePdu 1 [r] ++ rest)) = .returns (.of r, notes pre) rest := by
  have hle : pre.length ≤ (pre.flatten ++ (responsePdu 1 [r] ++ rest)).length := by
    have hshort := length_le_flatten fun f hf => (hpre f hf).ne_nil
    rw [List.length_append]
    omega
  obtain ⟨n, hn⟩ := Nat.exists_eq_add_of_le hle
  rw [call, hn, Nat.add_assoc, await_quiet hpre, await_response h, List.nil_append]

/-- Frames whose responses are these can be cut behind them. -/
theorem rounds_of_filter (h : frames.filter isResponse = rs.map fun r => responsePdu 1 [r]) :
    ∃ rounds, rounds.map Prod.fst = rs ∧ Rounds frames rounds := by
  induction rs generalizing frames with
  | nil => exact ⟨[], rfl, .rest fun f hf => by simpa using List.filter_eq_nil_iff.1 h f hf⟩
  | cons r rs ih =>
    obtain ⟨pre, post, rfl, hpre, -, hpost⟩ := List.filter_eq_cons_iff.1 h
    obtain ⟨rounds, rfl, hrounds⟩ := ih hpost
    exact ⟨(r, pre) :: rounds, rfl, .round r (fun f hf => by simpa using hpre f hf) hrounds⟩

/-- **A call for each round** returns its response, with its notifications. -/
theorem calls_flatten (h : Rounds frames rounds)
    (hpdus : ∀ f ∈ frames, PduOf [.rsp, .ntf, .keepalive] f) :
    calls rounds.length frames.flatten = rounds.map fun q => (.of q.1, notes q.2) := by
  induction h with
  | rest => rfl
  | @round pre frames rounds r hpre _ ih =>
    have hquiet : ∀ f ∈ pre, PduOf [.ntf, .keepalive] f := fun f hf =>
      PduOf.quiet_iff.2 ⟨hpdus f (List.mem_append_left _ hf), hpre f hf⟩
    obtain ⟨_, -, _, _, -, hlen⟩ := hpdus (responsePdu 1 [r]) (by simp)
    have hrest := ih fun f hf => hpdus f (by simp [hf])
    rw [List.length_cons, List.flatten_append, List.flatten_cons, calls,
      call_of_response _ hquiet hlen]
    exact congrArg (List.cons _) hrest

end Calls

/-! ### Sending -/

/-- The frame that the device makes of a call. -/
def frame (cmd : Command) : Frame := ⟨1, 1, cmd.encode⟩

section Sending

variable {size : ℕ} {cmd : Command} {cs : List Command}

theorem pack_eq (cmd : Command) : pack cmd = outgoingPdu .cmdRrq 1 cmd.encode := by
  have hmsg : (wr32 cmd.handle ++ (wr32 cmd.target ++ (wr16 cmd.level ++ (wr16 cmd.index ++
      ([cmd.paramCount] ++ cmd.params))))).length + 4 = 17 + cmd.params.length := by
    simp only [List.length_append, length_wr32, length_wr16, List.length_singleton]
    omega
  rw [pack, hmsg]
  rfl

/-- **The calls are parsed** into a frame each. -/
theorem refParse_pack (hfit : ∀ cmd ∈ cs, (pack cmd).length ≤ size) (hsize : size < 2 ^ 32) :
    RefParse size (cs.flatMap pack) (cs.map frame) [] true := by
  induction cs with
  | nil => exact .header (by decide)
  | cons cmd cs ih =>
    obtain ⟨hcmd, hcs⟩ := List.forall_mem_cons.1 hfit
    rw [pack_eq, length_outgoingPdu] at hcmd
    let h : FrameHeader := ⟨0x3B, 4, UInt32.ofNat (9 + cmd.encode.length), 1, 1⟩
    have htotal : h.total = 10 + cmd.encode.length := by
      change ((UInt32.ofNat (9 + cmd.encode.length)).toNat + 1) % 2 ^ 32 = _
      rw [UInt32.toNat_ofNat_of_lt' (show _ < 2 ^ 32 by omega)]
      omega
    have hvalid : h.Valid size := ⟨rfl, by omega, by omega⟩
    have hpack : pack cmd = h.encode ++ cmd.encode := by
      rw [pack_eq]
      rfl
    rw [List.flatMap_cons, hpack, List.append_assoc]
    exact .frame hvalid (by omega) (ih hcs)

theorem commandPdus_frame (cs : List Command) : commandPdus (cs.map frame) = cs.map frame := by
  refine List.filter_eq_self.2 fun f hf => ?_
  obtain ⟨cmd, -, rfl⟩ := List.mem_map.1 hf
  rfl

end Sending

end Smoketest

/-! ### The device -/

/-- From `d` on, the device executes these commands of connection `c` one after the other and sends
these responses, each of which fits its buffer; what happens in between happens elsewhere. -/
inductive InTurn (c : Fin K.maxConnections) (d : Device K) :
    List Command → List Response → Device K → Prop
  | start : InTurn c d [] [] d
  | others {cs rs d' d''} : InTurn c d cs rs d' → Elsewhere c d' d'' → InTurn c d cs rs d''
  | call {cs rs d' cmd params} {a : Answer K} : InTurn c d cs rs d' → Carries cmd (cmd, params) →
      a = answer K.txBufferSize c cmd params d' → Fits K.txBufferSize [a] →
      InTurn c d (cs ++ [cmd]) (rs ++ [a.response]) { a.dev with activeConn := none }

section InTurn

variable {c : Fin K.maxConnections} {d d' : Device K} {cs : List Command} {cmd : Command}
  {fs : List Frame} {pdus : List Bytes}

/-- A call is executed as the one command of its PDU. -/
theorem runPdu_frame {c : ℕ} (mem : Ptr) (henc : cmd.Encodable) (d : Device K) :
    ∃ params a, Carries cmd (cmd, params) ∧ a = answer K.txBufferSize c cmd params d ∧
      d.runPdu c .cmdRrq (Smoketest.frame cmd) mem = ({ a.dev with activeConn := none },
        if Fits K.txBufferSize [a] then responsePdu 1 [a.response] else []) := by
  have hone : List.Forall₂ Carries [cmd] (commands (UInt16.ofNat [cmd].length).toNat
      (Reader.init (Ptr.ofBytes ([cmd].flatMap Command.encode) mem)
        ([cmd].flatMap Command.encode).length)) :=
    carries_batch mem (by simp) (by simpa using henc)
  rw [List.flatMap_singleton] at hone
  obtain ⟨⟨cmd', params⟩, qs, hcarries, hnil, hqs⟩ := List.forall₂_cons_left_iff.1 hone
  obtain rfl := List.forall₂_nil_left_iff.1 hnil
  obtain rfl : cmd' = cmd := hcarries.1
  have hanswers : pduAnswers d c 1 (Ptr.ofBytes cmd'.encode mem) cmd'.encode.length
      K.txBufferSize = ([answer K.txBufferSize c cmd' params d],
        (answer K.txBufferSize c cmd' params d).dev) :=
    congrArg (fun qs => answers K.txBufferSize c qs d) hqs
  refine ⟨params, _, hcarries, rfl, Prod.ext ?_ ?_⟩
  · have hdev := routeCommandPdu_dev d c .cmdRrq 1 (Ptr.ofBytes cmd'.encode mem)
      cmd'.encode.length K.txBufferSize K.txBufferSize
    rw [hanswers] at hdev
    exact hdev
  · have hpdu := routeCommandPdu_pdu d c 1 (Ptr.ofBytes cmd'.encode mem) cmd'.encode.length
      K.txBufferSize
    rw [hanswers] at hpdu
    exact hpdu

/-- There is at most one response to a PDU. -/
theorem Exchange.length_le (h : Exchange c d fs pdus d') : pdus.length ≤ fs.length := by
  induction h with
  | start => exact le_rfl
  | others _ _ ih => exact ih
  | pdu mem _ _ ih =>
    unfold sent
    split_ifs <;> simp only [List.length_append, List.length_nil, List.length_singleton] <;> omega

/-- **An exchange of calls** of which every one was answered serves their commands. -/
theorem Exchange.inTurn (h : Exchange c d (cs.map Smoketest.frame) pdus d')
    (henc : ∀ cmd ∈ cs, cmd.Encodable) (hall : pdus.length = cs.length) :
    ∃ rs, InTurn c d cs rs d' ∧ pdus = rs.map fun r => responsePdu 1 [r] := by
  generalize hfs : cs.map Smoketest.frame = fs at h
  induction h generalizing cs with
  | start =>
    obtain rfl := List.map_eq_nil_iff.1 hfs
    exact ⟨[], .start, rfl⟩
  | others _ helse ih =>
    obtain ⟨rs, hserved, hpdus⟩ := ih henc hall hfs
    exact ⟨rs, hserved.others helse, hpdus⟩
  | @pdu fs pdus d' f type mem hex hf ih =>
    obtain ⟨cs', last, rfl, hfirst, hlast⟩ := List.map_eq_append_iff.1 hfs
    obtain ⟨cmd, rfl, rfl⟩ := List.map_eq_singleton_iff.1 hlast
    obtain rfl : MsgType.cmdRrq = type := Option.some.inj hf
    have hle := hex.length_le
    rw [← hfirst, List.length_map] at hle
    obtain ⟨params, a, hcarries, ha, hrun⟩ :=
      runPdu_frame (c := c) mem (henc cmd (by simp)) d'
    rw [hrun] at hall ⊢
    -- a response that does not fit would leave one too few
    by_cases hfits : Fits K.txBufferSize [a]
    · rw [if_pos hfits, sent, if_neg (responsePdu_ne_nil _ _)] at hall ⊢
      rw [List.length_append, List.length_append] at hall
      obtain ⟨rs, hserved, rfl⟩ := ih (fun cmd hcmd => henc cmd (List.mem_append_left _ hcmd))
        (Nat.add_right_cancel hall) hfirst
      exact ⟨_, hserved.call hcarries ha hfits, by rw [List.map_append]; rfl⟩
    · rw [if_neg hfits, sent, if_pos rfl, List.append_nil, List.length_append,
        List.length_singleton] at hall
      omega

end InTurn

/-! ### Both -/

/-- The bytes of a frame that the socket of connection `c` took. -/
def Event.taken (c : ℕ) : Event → Bytes
  | .tx conn frame n => if conn = c then frame.take n else []
  | _ => []

/-- The bytes that the socket of connection `c` took. -/
def taken (c : ℕ) (es : List Event) : Bytes := es.flatMap (Event.taken c)

/-- A socket that takes every frame whole. -/
theorem taken_of_whole {c : ℕ} {es : List Event}
    (h : ∀ frame n, .tx c frame n ∈ es → frame.length ≤ n) : taken c es = (told c es).flatten := by
  induction es with
  | nil => rfl
  | cons e es ih =>
    have hrest := ih fun frame n hmem => h frame n (List.mem_cons_of_mem _ hmem)
    have htold : told c (e :: es) = (e.frame c).toList ++ told c es := by
      rw [told, List.filterMap_cons]
      cases e.frame c <;> rfl
    have hone : e.taken c = (e.frame c).toList.flatten := by
      cases e with
      | tx conn frame n =>
        unfold Event.taken Event.frame
        dsimp only
        split_ifs with hconn
        · have hwhole := h frame n (by rw [← hconn]; exact List.mem_cons_self)
          rw [List.take_of_length_le hwhole]
          exact (List.append_nil _).symm
        · rfl
      | _ => rfl
    rw [htold, List.flatten_append, ← hone, ← hrest]
    exact List.flatMap_cons

/-- **A controller is answered.** It has sent some calls, which the device has received; nothing is
assumed about when, about the reads in which the device has received them, about other clients or
about the application. If every answer fits, so that there are as many responses as calls, and the
socket takes the frames of the session whole, then each call returns the answer to its command, each
executed once, at one go and in order, and passes on the notifications that were sent between the
response before and its own. -/
theorem calls_of_reach {s : Dialogue K} (h : (dialogue K).Reach s) {c : Fin K.maxConnections}
    (huse : (s.dev.conns c).inUse = true) {cs : List Command}
    (hfit : ∀ cmd ∈ cs, (Smoketest.pack cmd).length ≤ K.rxBufferSize)
    (hheard : s.heard c = cs.flatMap Smoketest.pack)
    (hall : (responses c (s.record c)).length = cs.length)
    (hwhole : ∀ frame n, .tx c frame n ∈ s.record c → frame.length ≤ n) :
    ∃ d₀ rounds, (server K).Reach d₀ ∧ InTurn c d₀ cs (rounds.map Prod.fst) s.dev ∧
      Smoketest.Rounds (told c (s.record c)) rounds ∧
      Smoketest.calls cs.length (taken c (s.record c)) =
        rounds.map fun q => (.of q.1, Smoketest.notes q.2) := by
  have hsize := K.rxBufferSize_range.2
  obtain ⟨d₀, hreach, hdeals⟩ := (right_of_reach h).converses c huse
  have hparse := (Smoketest.refParse_pack hfit (by omega)).parse_eq
  have hex := hdeals.exchange
  rw [hheard, hparse, Smoketest.commandPdus_frame] at hex
  have henc : ∀ cmd ∈ cs, cmd.Encodable := by
    intro cmd hcmd
    have hlen := hfit cmd hcmd
    rw [Smoketest.pack_eq, length_outgoingPdu, Command.length_encode] at hlen
    unfold Command.Encodable
    omega
  obtain ⟨rs, hserved, hpdus⟩ := hex.inTurn henc hall
  obtain ⟨rounds, rfl, hrounds⟩ := Smoketest.rounds_of_filter hpdus
  have hcount : rounds.length = cs.length := by
    rw [← hall, hpdus, List.length_map, List.length_map]
  have hcalls := Smoketest.calls_flatten hrounds (forall_told hdeals.pdus)
  rw [hcount] at hcalls
  rw [taken_of_whole hwhole]
  exact ⟨d₀, rounds, hreach, hserved, hrounds, hcalls⟩

namespace Sample

/-- The call behind `versionFrame`. -/
def versionCall : Command := ⟨7, 1, 3, 1, 0, []⟩

theorem calls_version : ∃ (d₀ : Device .default) (rounds : List (Response × List Bytes)),
    InTurn firstSlot d₀ [versionCall] (rounds.map Prod.fst) conversing.dev ∧
      [(⟨0, 1, [0, 3]⟩, [])] =
        rounds.map fun q => (Smoketest.Reply.of q.1, Smoketest.notes q.2) := by
  have hheard : conversing.heard firstSlot = [versionCall].flatMap Smoketest.pack := by
    rw [heard_conversing]
    decide
  have hwhole : ∀ frame n, .tx 0 frame n ∈ conversing.record firstSlot → frame.length ≤ n := by
    have hall : ((conversing.record firstSlot).all fun
        | .tx _ frame n => decide (frame.length ≤ n)
        | _ => true) = true := by
      rw [record_conversing]
      decide +kernel
    intro frame n he
    simpa using List.all_eq_true.1 hall _ he
  have hall :
      (responses firstSlot (conversing.record firstSlot)).length = [versionCall].length := by
    rw [record_conversing]
    decide +kernel
  obtain ⟨d₀, rounds, -, hserved, -, hcalls⟩ :=
    calls_of_reach reach_conversing inUse_conversing.2 (by decide) hheard hall hwhole
  refine ⟨d₀, rounds, hserved, Eq.trans ?_ hcalls⟩
  rw [record_conversing]
  decide +kernel

end Sample

end Aes70
