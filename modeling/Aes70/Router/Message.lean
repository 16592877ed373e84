import Aes70.Class.Overread
import Aes70.Router.Parse

/-!
# Responses, one for each command

The router works in place: one writer for all responses, sizes and statuses patched in afterwards,
and a loop that parses, executes and answers at once. Seen from outside it first finds the commands
of the body, then answers them one after the other, then sends all answers or none.

* `Response`, `responsePdu` : the wire format of what comes back.
* `answer`, `answers` : execute commands one after the other, each with a writer of its own.
* `routeCommandPdu_dev`, `routeCommandPdu_pdu` : the router is `answers` on `commands`.
* `routeCommandPdu_blind` : what it does to the device does not depend on the response.
-/

namespace Aes70

variable {K : Kconfig}

/-! ### Wire format -/

/-- A Response message. -/
structure Response where
  handle : UInt32
  status : Status
  paramCount : UInt8
  params : Bytes
deriving DecidableEq

/-- size(4) | handle(4) | status(1) | paramCount(1) | params; the size counts itself. -/
def Response.encode (r : Response) : Bytes :=
  wr32 (UInt32.ofNat (10 + r.params.length)) ++
    (wr32 r.handle ++ ([r.status.code] ++ ([r.paramCount] ++ r.params)))

/-- A Response PDU with this message count. -/
def responsePdu (msgCount : UInt16) (rs : List Response) : Bytes :=
  let body := rs.flatMap Response.encode
  [ocp1SyncVal] ++ (wr16 ocp1ProtoVersion ++ (wr32 (UInt32.ofNat (9 + body.length)) ++
    ([MsgType.rsp.code] ++ (wr16 msgCount ++ body))))

@[simp] theorem Response.length_encode (r : Response) : r.encode.length = 10 + r.params.length := by
  simp only [encode, List.length_append, length_wr32, List.length_singleton]
  omega

/-! ### Reference -/

/-- What the execution of one command comes to. -/
structure Answer (K : Kconfig) where
  response : Response
  /-- The parameters of the response did not fit their buffer. -/
  overflow : Bool
  dev : Device K
  /-- The parameter reader as the handler left it. -/
  rd : Reader

/-- Execute one command of connection `conn`, with a buffer of `room` bytes for the parameters of
its response. A command that fails has none. -/
def answer (room conn : ℕ) (cmd : Command) (params : Reader) (d : Device K) : Answer K :=
  let (st, c) := execCommand conn cmd
    ⟨{ d with activeConn := some conn }, params, Writer.init room, 0⟩
  { response :=
      ⟨cmd.handle, st, if st = .ok then c.pc else 0, if st = .ok then c.wr.buf else []⟩
    overflow := c.wr.err
    dev := c.dev
    rd := c.rd }

/-- Execute commands one after the other, each on the device the one before it left. -/
def answers (room conn : ℕ) : List (Command × Reader) → Device K → List (Answer K) × Device K
  | [], d => ([], d)
  | (cmd, params) :: qs, d =>
    let a := answer room conn cmd params d
    let (as, d) := answers room conn qs a.dev
    (a :: as, d)

/-- The responses fit a PDU of `cap` bytes. -/
def Fits (cap : ℕ) (as : List (Answer K)) : Prop :=
  10 + (as.flatMap fun a => a.response.encode).length ≤ cap ∧ ∀ a ∈ as, a.overflow = false

instance (cap : ℕ) (as : List (Answer K)) : Decidable (Fits cap as) :=
  inferInstanceAs (Decidable (_ ∧ _))

/-! ### One response -/

/-- What a writer holds, `none` after an overflow. -/
def Writer.content (w : Writer) : Option Bytes := if w.err then none else some w.buf

theorem Writer.content_of_ok {w : Writer} (h : w.err = false) : w.content = some w.buf := by
  rw [content, h]
  rfl

theorem Writer.content_of_err {w : Writer} (h : w.err = true) : w.content = none := by
  rw [content, h]
  rfl

/-- The execution of a command has the same effect from readers that cannot be told apart. -/
theorem execCommand_uniformAt {R : Reader → Reader → Prop} (hR : ReadRel R) {d : Device K}
    {conn : ℕ} {cmd : Command} {rd rd' : Reader} (h : R rd rd')
    (ha : ∀ i, d.find cmd.target = some i → Recalls d i cmd.level cmd.index →
      UniformAt R applyParameterData d rd rd') :
    UniformAt R (execCommand conn cmd) d rd rd' := by
  intro pc
  cases hf : d.find cmd.target with
  | none =>
    refine ⟨⟨.badOno, d.emit (.command conn cmd .badOno), [], pc⟩, rd, rd', h, fun _ => rfl,
      fun wr => ⟨?_, ?_⟩⟩
    all_goals
      rw [execCommand_of_none (by exact hf)]
      rfl
  | some i =>
    obtain ⟨e, r, r', hrel, hfail, heq⟩ := objectDispatch_uniformAt hR i cmd.index h (ha i hf) pc
    refine ⟨{ e with dev := e.dev.emit (.command conn cmd e.status) }, r, r', hrel, hfail,
      fun wr => ⟨?_, ?_⟩⟩
    · rw [execCommand_of_find (by exact hf), (heq wr).1]
      rfl
    · rw [execCommand_of_find (by exact hf), (heq wr).2]
      rfl

/-- A command's execution does not depend on the writer it gets. -/
theorem execCommand_blind (conn : ℕ) (cmd : Command) (d : Device K) (rd : Reader) :
    ∃ (e : Effect K) (r : Reader), (e.status ≠ .ok → e.fields = []) ∧
      ∀ wr, execCommand conn cmd ⟨d, rd, wr, 0⟩ = e.on r wr := by
  obtain ⟨e, r, r', rfl, hfail, heq⟩ := execCommand_uniformAt readRel_eq (rfl : rd = rd)
    (fun _ _ _ => applyParameterData_uniformAt rfl rfl) 0
  exact ⟨e, r, hfail, fun wr => (heq wr).1⟩

/-- The fixed part of a message before the statuses are patched in. -/
def placeholders (handle : UInt32) : List Field := [.u32 0, .u32 handle, .u8 0, .u8 0]

theorem encodeAll_placeholders (handle : UInt32) :
    Field.encodeAll (placeholders handle) = wr32 0 ++ (wr32 handle ++ ([0] ++ [0])) := by
  simp [placeholders, Field.encodeAll, Field.encode, Field.pieces]

theorem encodeAll_append (fs fs' : List Field) :
    Field.encodeAll (fs ++ fs') = Field.encodeAll fs ++ Field.encodeAll fs' :=
  List.flatMap_append

/-- Patching the placeholders gives the message. -/
theorem patch_message (b ps : Bytes) (cap : ℕ) (handle : UInt32) (st : Status) (pc : UInt8) :
    ((((⟨b ++ (Field.encodeAll (placeholders handle) ++ ps), cap, false⟩ : Writer).patch
      (b.length + 8) [st.code]).patch (b.length + 9) [pc]).patch b.length
        (wr32 (UInt32.ofNat (10 + ps.length)))) =
      ⟨b ++ (Response.mk handle st pc ps).encode, cap, false⟩ := by
  let w (size : Bytes) (code pc : UInt8) : Writer :=
    ⟨b ++ (size ++ (wr32 handle ++ ([code] ++ ([pc] ++ ps)))), cap, false⟩
  have h8 : b.length + 8 = (b ++ (wr32 0 ++ wr32 handle)).length := by simp
  have h9 : b.length + 9 = (b ++ (wr32 0 ++ (wr32 handle ++ [st.code]))).length := by simp
  have hstatus : (w (wr32 0) 0 0).patch (b.length + 8) [st.code] = w (wr32 0) st.code 0 := by
    rw [h8, Writer.patch_append (c := [0]) (b := [0] ++ ps) (by simp [w]) (by simp)]
    simp [w]
  have hcount : (w (wr32 0) st.code 0).patch (b.length + 9) [pc] = w (wr32 0) st.code pc := by
    rw [h9, Writer.patch_append (c := [0]) (b := ps) (by simp [w]) (by simp)]
    simp [w]
  have hsize (size : Bytes) (h : size.length = 4) :
      (w (wr32 0) st.code pc).patch b.length size = w size st.code pc := by
    rw [Writer.patch_append (c := wr32 0) (b := wr32 handle ++ ([st.code] ++ ([pc] ++ ps)))
      (by simp [w]) (by simp [h])]
    simp [w]
  have hstart : (⟨b ++ (Field.encodeAll (placeholders handle) ++ ps), cap, false⟩ : Writer) =
      w (wr32 0) 0 0 := by simp [encodeAll_placeholders, w]
  rw [hstart, hstatus, hcount, hsize _ (length_wr32 _)]
  rfl

/-- The answer that goes with an effect. -/
def Effect.answer (e : Effect K) (room : ℕ) (handle : UInt32) (rd : Reader) : Answer K where
  response := ⟨handle, e.status, if e.status = .ok then e.pc else 0,
    if e.status = .ok then ((Writer.init room).fields e.fields).buf else []⟩
  overflow := ((Writer.init room).fields e.fields).err
  dev := e.dev
  rd := rd

/-- The writer `append_response` leaves when the handler has the effect `e`. -/
def Effect.message (e : Effect K) (handle : UInt32) (resp : Writer) : Writer :=
  let statusAt := (resp.fields [.u32 0, .u32 handle]).off
  let pcAt := (resp.fields [.u32 0, .u32 handle, .u8 0]).off
  let w := resp.fields (placeholders handle ++ e.fields)
  let w := if e.status ≠ .ok ∧ !w.err then w.rewind (pcAt + 1) else w
  let pc := if e.status ≠ .ok then 0 else e.pc
  if w.err then w else
    ((w.patch statusAt [e.status.code]).patch pcAt [pc]).patch resp.off
      (wr32 (UInt32.ofNat (w.off - resp.off)))

section Exec

variable {conn : ℕ} {cmd : Command} {d : Device K} {params r : Reader} {e : Effect K}

theorem answer_of_exec (room : ℕ)
    (hx : ∀ wr, execCommand conn cmd ⟨{ d with activeConn := some conn }, params, wr, 0⟩ = e.on r wr) :
    answer room conn cmd params d = e.answer room cmd.handle r := by
  unfold answer
  rw [hx]
  rfl

/-- The answer that goes with the effect of the method that is called. -/
theorem answer_of_dispatch {i : ObjRef} (room : ℕ) (hf : d.find cmd.target = some i)
    (hx : ∀ wr, objectDispatch i cmd.level cmd.index
      ⟨{ d with activeConn := some conn }, params, wr, 0⟩ = e.on r wr) :
    answer room conn cmd params d =
      ({ e with dev := e.dev.emit (.command conn cmd e.status) } : Effect K).answer room cmd.handle
        r := by
  refine answer_of_exec room fun wr => ?_
  have hfind : ({ d with activeConn := some conn } : Device K).find cmd.target = some i := hf
  simp only [execCommand, hfind, hx]
  rfl

theorem appendResponse_of_exec (resp : Writer)
    (hx : ∀ wr, execCommand conn cmd ⟨d, params, wr, 0⟩ = e.on r wr) :
    appendResponse conn cmd params d resp = (e.dev, r, e.message cmd.handle resp) := by
  unfold appendResponse
  dsimp only
  rw [hx, Effect.message, Writer.fields_append]
  rfl

end Exec

/-- What is left in a buffer of `cap` bytes that holds `b`. -/
def Answer.append (a : Answer K) (cap : ℕ) (b : Bytes) : Option Bytes :=
  if a.overflow = false ∧ b.length + a.response.encode.length ≤ cap then
    some (b ++ a.response.encode)
  else none

namespace Effect

variable {e : Effect K}

theorem message_of_err {resp : Writer} (h : resp.err = true) (handle : UInt32) :
    e.message handle resp = resp := by
  unfold message
  simp only [Writer.fields_of_err h, h, Bool.not_true, Bool.false_eq_true, and_false, if_false,
    if_true]

/-- Fields that fit a buffer of their own are all there. -/
theorem answer_params (hfail : e.status ≠ .ok → e.fields = []) {room : ℕ} (handle : UInt32)
    (rd : Reader) (h : (e.answer room handle rd).overflow = false) :
    (e.answer room handle rd).response.params = Field.encodeAll e.fields := by
  have hfit : (Field.encodeAll e.fields).length ≤ room := by
    by_contra hlt
    have herr : ((Writer.init room).fields e.fields).err = true :=
      Writer.fields_of_overflow rfl (by simpa [Writer.init, Writer.off] using hlt)
        (Nat.zero_le _)
    exact absurd (h.symm.trans herr) (by simp)
  by_cases hok : e.status = .ok
  · simp only [answer, hok, if_true]
    rw [Writer.fields_of_fits rfl (by simpa [Writer.init, Writer.off] using hfit)]
    rfl
  · simp [answer, hok, hfail hok, Field.encodeAll]

theorem length_placeholders (handle : UInt32) :
    (Field.encodeAll (placeholders handle)).length = 10 := by
  simp [encodeAll_placeholders]

theorem message_of_fits (hfail : e.status ≠ .ok → e.fields = []) {b : Bytes} {cap : ℕ}
    (handle : UInt32) (h : b.length + (10 + (Field.encodeAll e.fields).length) ≤ cap) :
    e.message handle ⟨b, cap, false⟩ =
      ⟨b ++ (Response.mk handle e.status (if e.status = .ok then e.pc else 0)
        (Field.encodeAll e.fields)).encode, cap, false⟩ := by
  have hall : (⟨b, cap, false⟩ : Writer).fields (placeholders handle ++ e.fields) =
      ⟨b ++ (Field.encodeAll (placeholders handle) ++ Field.encodeAll e.fields), cap, false⟩ := by
    rw [Writer.fields_of_fits rfl, encodeAll_append]
    rw [encodeAll_append, List.length_append, length_placeholders]
    exact h
  have hoff (fs : List Field) (n : ℕ) (hn : (Field.encodeAll fs).length = n) (hle : n ≤ 10) :
      ((⟨b, cap, false⟩ : Writer).fields fs).off = b.length + n := by
    rw [Writer.fields_of_fits rfl (by simp only [Writer.off]; omega)]
    simp [Writer.off, hn]
  unfold message
  dsimp only
  rw [hall, hoff [.u32 0, .u32 handle] 8 rfl (by decide),
    hoff [.u32 0, .u32 handle, .u8 0] 9 rfl (by decide)]
  have hsize : (b ++ (Field.encodeAll (placeholders handle) ++
      Field.encodeAll e.fields)).length - b.length = 10 + (Field.encodeAll e.fields).length := by
    simp [length_placeholders]
  have hpatch := patch_message b (Field.encodeAll e.fields) cap handle e.status
  by_cases hok : e.status = .ok
  · rw [← hpatch, ← hsize]
    simp [hok, Writer.off]
  · -- a failed command wrote no parameters, so there is nothing to give back
    have hrewind : (⟨b ++ (Field.encodeAll (placeholders handle) ++ Field.encodeAll e.fields), cap,
        false⟩ : Writer).rewind (b.length + 9 + 1) =
          ⟨b ++ (Field.encodeAll (placeholders handle) ++ Field.encodeAll e.fields), cap, false⟩ := by
      have hnone : Field.encodeAll e.fields = [] := by rw [hfail hok]; rfl
      simp [Writer.rewind, hnone, length_placeholders]
    rw [← hpatch, ← hsize]
    simp [hok, hrewind, Writer.off]

/-- The message is appended if it fits; if not, the writer overflows. -/
theorem content_message (hfail : e.status ≠ .ok → e.fields = []) {resp : Writer} (handle : UInt32)
    (rd : Reader) (he : resp.err = false) (hw : resp.off ≤ resp.cap) :
    (e.message handle resp).content =
      (e.answer resp.cap handle rd).append resp.cap resp.buf := by
  obtain ⟨b, cap, err⟩ := resp
  obtain rfl : err = false := he
  by_cases hfit : b.length + (10 + (Field.encodeAll e.fields).length) ≤ cap
  · have hover : (e.answer cap handle rd).overflow = false := by
      change ((Writer.init cap).fields e.fields).err = false
      rw [Writer.fields_of_fits rfl (by simp only [Writer.init, Writer.off, List.length_nil]; omega)]
      rfl
    have hparams := answer_params hfail handle rd hover
    have happ : (e.answer cap handle rd).append cap b =
        some (b ++ (e.answer cap handle rd).response.encode) :=
      if_pos ⟨hover, by rw [Response.length_encode, hparams]; exact hfit⟩
    rw [message_of_fits hfail handle hfit, happ, ← hparams]
    rfl
  · have hw' : ((⟨b, cap, false⟩ : Writer).fields (placeholders handle ++ e.fields)).err = true := by
      refine Writer.fields_of_overflow rfl ?_ hw
      rw [encodeAll_append, List.length_append, length_placeholders]
      exact Nat.lt_of_not_le hfit
    have hmsg : e.message handle ⟨b, cap, false⟩ =
        (⟨b, cap, false⟩ : Writer).fields (placeholders handle ++ e.fields) := by
      unfold message
      simp only [hw', Bool.not_true, Bool.false_eq_true, and_false, if_false, if_true]
    rw [hmsg, Writer.content_of_err hw', Answer.append, if_neg]
    rintro ⟨hover, hle⟩
    rw [Response.length_encode, answer_params hfail handle rd hover] at hle
    exact hfit hle

end Effect

/-- **One turn of `append_response`** executes the command and appends its answer, or overflows. -/
theorem appendResponse_spec (conn : ℕ) (cmd : Command) (params : Reader) (d : Device K)
    {resp : Writer} (hw : resp.err = false → resp.off ≤ resp.cap) :
    let a := answer resp.cap conn cmd params d
    let out := appendResponse conn cmd params { d with activeConn := some conn } resp
    out.1 = a.dev ∧ out.2.1 = a.rd ∧ out.2.2.content = resp.content.bind (a.append resp.cap) := by
  obtain ⟨e, r, hfail, hx⟩ := execCommand_blind conn cmd { d with activeConn := some conn } params
  dsimp only
  rw [answer_of_exec resp.cap hx, appendResponse_of_exec resp hx]
  refine ⟨rfl, rfl, ?_⟩
  cases he : resp.err with
  | true => rw [Effect.message_of_err he, Writer.content_of_err he, Option.bind_none]
  | false =>
    rw [Effect.content_message hfail cmd.handle r he (hw he), Writer.content_of_ok he,
      Option.bind_some]

theorem cap_appendResponse (conn : ℕ) (cmd : Command) (params : Reader) (d : Device K)
    (resp : Writer) : (appendResponse conn cmd params d resp).2.2.cap = resp.cap := by
  obtain ⟨e, r, -, hx⟩ := execCommand_blind conn cmd d params
  rw [appendResponse_of_exec resp hx, ← Writer.cap_fields resp (placeholders cmd.handle ++ e.fields)]
  unfold Effect.message
  dsimp only
  split_ifs <;> rfl

/-! ### All responses -/

/-- A writer that has not overflowed is inside its buffer. -/
def Writer.Sound (w : Writer) : Prop := w.err = false → w.off ≤ w.cap

theorem Writer.sound_of_content {w : Writer} (h : ∀ b, w.content = some b → b.length ≤ w.cap) :
    w.Sound := fun he => h w.buf (Writer.content_of_ok he)

/-- What is left of a buffer of `cap` bytes that holds `b` after these answers. -/
def appendAll (cap : ℕ) (as : List (Answer K)) (b : Bytes) : Option Bytes :=
  if b.length + (as.flatMap fun a => a.response.encode).length ≤ cap ∧
      ∀ a ∈ as, a.overflow = false then
    some (b ++ as.flatMap fun a => a.response.encode)
  else none

theorem appendAll_cons (cap : ℕ) (a : Answer K) (as : List (Answer K)) (b : Bytes) :
    appendAll cap (a :: as) b = (a.append cap b).bind (appendAll cap as) := by
  by_cases hfit : a.overflow = false ∧ b.length + a.response.encode.length ≤ cap
  · rw [Answer.append, if_pos hfit, Option.bind_some]
    simp [appendAll, hfit.1, Nat.add_assoc]
  · rw [Answer.append, if_neg hfit, Option.bind_none, appendAll, if_neg]
    rintro ⟨hle, hover⟩
    rw [List.flatMap_cons, List.length_append] at hle
    exact hfit ⟨hover a List.mem_cons_self, by omega⟩

theorem appendAll_nil {cap : ℕ} {b : Bytes} (h : b.length ≤ cap) :
    appendAll cap ([] : List (Answer K)) b = some b := by
  simp [appendAll, h]

theorem Writer.Sound.appendResponse {resp : Writer} (hw : resp.Sound) (conn : ℕ) (cmd : Command)
    (params : Reader) (d : Device K) :
    (appendResponse conn cmd params { d with activeConn := some conn } resp).2.2.Sound := by
  refine Writer.sound_of_content fun b hb => ?_
  rw [(appendResponse_spec conn cmd params d hw).2.2, Option.bind_eq_some_iff] at hb
  obtain ⟨b', -, happ⟩ := hb
  unfold Answer.append at happ
  split_ifs at happ with hfit
  obtain rfl := Option.some.inj happ
  rw [cap_appendResponse, List.length_append]
  exact hfit.2

/-- The device after some commands does not depend on the room for their responses. -/
theorem answers_dev (room room' conn : ℕ) (qs : List (Command × Reader)) (d : Device K) :
    (answers room conn qs d).2 = (answers room' conn qs d).2 := by
  induction qs generalizing d with
  | nil => rfl
  | cons q qs ih =>
    obtain ⟨e, r, -, hx⟩ := execCommand_blind conn q.1 { d with activeConn := some conn } q.2
    unfold answers
    rw [answer_of_exec room hx, answer_of_exec room' hx]
    exact ih e.dev

/-- Without responses the loop is the same execution. -/
theorem routeLoop_silent (room conn n : ℕ) (s : Router K) :
    (routeLoop conn false n s).dev = (answers room conn (commands n s.rd) s.dev).2 := by
  induction n generalizing s with
  | zero => rfl
  | succ n ih =>
    unfold routeLoop commands
    cases hp : nextCommand s.rd with
    | none => rfl
    | some p =>
      obtain ⟨e, r, -, hx⟩ := execCommand_blind conn p.cmd
        { s.dev with activeConn := some conn } p.params
      dsimp only
      unfold answers
      rw [answer_of_exec room hx, ih]
      unfold routeCommand
      simp only [Bool.false_eq_true, if_false, hx]
      rfl

/-- The loop answers the commands it finds one after the other. -/
theorem routeLoop_answers (conn n : ℕ) {s : Router K} (hw : s.resp.Sound) :
    (routeLoop conn true n s).dev =
        (answers s.resp.cap conn (commands n s.rd) s.dev).2 ∧
      (routeLoop conn true n s).resp.content = s.resp.content.bind
        (appendAll s.resp.cap (answers s.resp.cap conn (commands n s.rd) s.dev).1) := by
  have hnil (w : Writer) (hw : w.Sound) :
      w.content = w.content.bind (appendAll w.cap ([] : List (Answer K))) := by
    cases he : w.err with
    | true => rw [Writer.content_of_err he, Option.bind_none]
    | false => rw [Writer.content_of_ok he, Option.bind_some, appendAll_nil (hw he)]
  induction n generalizing s with
  | zero => exact ⟨rfl, hnil _ hw⟩
  | succ n ih =>
    unfold routeLoop commands
    cases hp : nextCommand s.rd with
    | none => exact ⟨rfl, hnil _ hw⟩
    | some p =>
      let s' := routeCommand conn true p s
      let a := answer s.resp.cap conn p.cmd p.params s.dev
      obtain ⟨hout, -, hcontent⟩ := appendResponse_spec conn p.cmd p.params s.dev hw
      have hdev : s'.dev = a.dev := hout
      have hresp : s'.resp.content = s.resp.content.bind (a.append s.resp.cap) := hcontent
      have hcap : s'.resp.cap = s.resp.cap := cap_appendResponse _ _ _ _ _
      have hih := ih (s := s') (hw.appendResponse conn p.cmd p.params s.dev)
      rw [hdev, hcap, hresp, Option.bind_assoc] at hih
      refine ⟨hih.1, hih.2.trans (congrArg s.resp.content.bind (funext fun b => ?_))⟩
      exact (appendAll_cons _ _ _ _).symm

/-! ### The PDU -/

theorem encodeAll_responseHeader (msgCount : UInt16) :
    Field.encodeAll (responseHeader msgCount) = [ocp1SyncVal] ++ (wr16 ocp1ProtoVersion ++
      (wr32 0 ++ ([MsgType.rsp.code] ++ wr16 msgCount))) := by
  simp [responseHeader, Field.encodeAll, Field.encode, Field.pieces]

theorem length_responseHeader (msgCount : UInt16) :
    (Field.encodeAll (responseHeader msgCount)).length = 10 := by
  simp [encodeAll_responseHeader]

/-- Patching the size completes the PDU. -/
theorem patch_pdusize (msgCount : UInt16) (rs : List Response) (cap : ℕ) :
    (((⟨Field.encodeAll (responseHeader msgCount) ++ rs.flatMap Response.encode, cap, false⟩ :
      Writer).patch pdusizeAt (wr32 (UInt32.ofNat (9 + (rs.flatMap Response.encode).length)))).buf) =
        responsePdu msgCount rs := by
  have hat : pdusizeAt = ([ocp1SyncVal] ++ wr16 ocp1ProtoVersion).length := by simp [pdusizeAt]
  rw [hat, Writer.patch_append (c := wr32 0)
    (b := [MsgType.rsp.code] ++ (wr16 msgCount ++ rs.flatMap Response.encode))
    (by simp [encodeAll_responseHeader]) (by simp)]
  simp [responsePdu]

section Pdu

variable (d : Device K) (conn : ℕ) (type : MsgType) (msgCount : UInt16) (data : Ptr)
  (dataLen outCap : ℕ)

/-- The answers to the commands of a PDU, and the device after them. -/
def pduAnswers : List (Answer K) × Device K :=
  answers outCap conn (commands msgCount.toNat (Reader.init data dataLen)) d

theorem content_header : ((Writer.init outCap).fields (responseHeader msgCount)).content =
    if 10 ≤ outCap then some (Field.encodeAll (responseHeader msgCount)) else none := by
  have hlen := length_responseHeader msgCount
  by_cases h : 10 ≤ outCap
  · rw [if_pos h, Writer.fields_of_fits rfl (by simpa [Writer.init, Writer.off, hlen] using h)]
    rfl
  · have hover : ((Writer.init outCap).fields (responseHeader msgCount)).err = true :=
      Writer.fields_of_overflow rfl
        (by simpa [Writer.init, Writer.off, hlen] using Nat.lt_of_not_le h) (Nat.zero_le _)
    rw [if_neg h, Writer.content_of_err hover]

theorem sound_header : ((Writer.init outCap).fields (responseHeader msgCount)).Sound := by
  refine Writer.sound_of_content fun b hb => ?_
  rw [content_header] at hb
  split_ifs at hb with h
  obtain rfl := Option.some.inj hb
  rw [length_responseHeader, Writer.cap_fields]
  exact h

/-- The loop for a PDU that wants responses. -/
def pduLoop : Router K :=
  routeLoop conn true msgCount.toNat
    ⟨d, Reader.init data dataLen, (Writer.init outCap).fields (responseHeader msgCount)⟩

theorem routeCommandPdu_eq :
    routeCommandPdu d conn .cmdRrq msgCount data dataLen outCap =
      let s := pduLoop d conn msgCount data dataLen outCap
      ({ s.dev with activeConn := none }, if s.resp.err then [] else
        (s.resp.patch pdusizeAt (wr32 (UInt32.ofNat (s.resp.off - ocp1PdusizePrefix)))).buf) := by
  unfold routeCommandPdu
  simp only [decide_true, if_true, Bool.not_true, Bool.false_eq_true, if_false]
  rw [← pduLoop]
  split_ifs <;> rfl

theorem pduLoop_answers :
    (pduLoop d conn msgCount data dataLen outCap).dev =
        (pduAnswers d conn msgCount data dataLen outCap).2 ∧
      (pduLoop d conn msgCount data dataLen outCap).resp.content =
        if Fits outCap (pduAnswers d conn msgCount data dataLen outCap).1 then
          some (Field.encodeAll (responseHeader msgCount) ++
            (pduAnswers d conn msgCount data dataLen outCap).1.flatMap fun a => a.response.encode)
        else none := by
  obtain ⟨hdev, hcontent⟩ := routeLoop_answers (K := K) conn msgCount.toNat
    (s := ⟨d, Reader.init data dataLen, (Writer.init outCap).fields (responseHeader msgCount)⟩)
    (sound_header msgCount outCap)
  have hcap : ((Writer.init outCap).fields (responseHeader msgCount)).cap = outCap :=
    Writer.cap_fields _ _
  dsimp only at hdev hcontent
  rw [hcap] at hdev hcontent
  rw [content_header] at hcontent
  refine ⟨hdev, hcontent.trans ?_⟩
  by_cases h : 10 ≤ outCap
  · rw [if_pos h, Option.bind_some, appendAll, length_responseHeader]
    rfl
  · rw [if_neg h, Option.bind_none, if_neg]
    exact fun hfit => h (by have := hfit.1; omega)

/-- The router leaves the device that executing the commands leaves. -/
theorem routeCommandPdu_dev (room : ℕ) :
    (routeCommandPdu d conn type msgCount data dataLen outCap).1 =
      { (pduAnswers d conn msgCount data dataLen room).2 with activeConn := none } := by
  have hroom : (pduAnswers d conn msgCount data dataLen room).2 =
      (pduAnswers d conn msgCount data dataLen outCap).2 := answers_dev _ _ _ _ _
  rw [hroom]
  by_cases htype : type = .cmdRrq
  · subst htype
    rw [routeCommandPdu_eq, ← (pduLoop_answers d conn msgCount data dataLen outCap).1]
  · rw [pduAnswers, ← routeLoop_silent outCap conn msgCount.toNat
      ⟨d, Reader.init data dataLen, Writer.init outCap⟩]
    unfold routeCommandPdu
    simp [htype]

/-- **The router answers every command it finds**, in one PDU if it fits and not at all if not. -/
theorem routeCommandPdu_pdu :
    (routeCommandPdu d conn .cmdRrq msgCount data dataLen outCap).2 =
      if Fits outCap (pduAnswers d conn msgCount data dataLen outCap).1 then
        responsePdu msgCount
          ((pduAnswers d conn msgCount data dataLen outCap).1.map Answer.response)
      else [] := by
  have hcontent := (pduLoop_answers d conn msgCount data dataLen outCap).2
  rw [routeCommandPdu_eq]
  dsimp only
  generalize pduLoop d conn msgCount data dataLen outCap = s at hcontent
  obtain ⟨dev, rd, buf, cap, err⟩ := s
  cases err with
  | true =>
    rw [Writer.content_of_err rfl] at hcontent
    split_ifs at hcontent with hfit
    · exact (if_pos rfl).trans (if_neg hfit).symm
  | false =>
    rw [Writer.content_of_ok rfl] at hcontent
    split_ifs at hcontent with hfit
    obtain rfl := Option.some.inj hcontent
    have hflat : (pduAnswers d conn msgCount data dataLen outCap).1.flatMap
        (fun a => a.response.encode) = ((pduAnswers d conn msgCount data dataLen outCap).1.map
          Answer.response).flatMap Response.encode := by rw [List.flatMap_map]
    rw [if_pos hfit, if_neg (by simp), ← patch_pdusize _ _ cap, hflat]
    have hsize : ∀ n, 10 + n - ocp1PdusizePrefix = 9 + n := by
      intro n
      unfold ocp1PdusizePrefix
      omega
    simp only [Writer.off, List.length_append, length_responseHeader, hsize]

end Pdu

/-! ### The response channel -/

namespace Event

/-- A run of `aes70_notify_property_changed`. -/
def isNotification : Event → Bool
  | propertyChanged .. => true
  | _ => false

/-- A call of `on_control_changed`. -/
def isCallback : Event → Bool
  | controlChanged .. => true
  | _ => false

end Event

/-- **The response channel is blind**: whether a response is asked for, and how much of it fits,
makes no difference to the device, the notifications and the callbacks. -/
theorem routeCommandPdu_blind (d : Device K) (conn : ℕ) (msgCount : UInt16) (data : Ptr)
    (dataLen plainCap outCap : ℕ) :
    let plain := (routeCommandPdu d conn .cmd msgCount data dataLen plainCap).1
    let asked := (routeCommandPdu d conn .cmdRrq msgCount data dataLen outCap).1
    plain = asked ∧ plain.log.filter Event.isNotification = asked.log.filter Event.isNotification ∧
      plain.log.filter Event.isCallback = asked.log.filter Event.isCallback := by
  dsimp only
  have hdev : (routeCommandPdu d conn .cmd msgCount data dataLen plainCap).1 =
      (routeCommandPdu d conn .cmdRrq msgCount data dataLen outCap).1 := by
    rw [routeCommandPdu_dev _ _ _ _ _ _ plainCap 0, routeCommandPdu_dev _ _ _ _ _ _ outCap 0]
  rw [hdev]
  exact ⟨rfl, rfl, rfl⟩

/-! ### Queries -/

section Queries

open Handler

variable {d : Device K} {i : ObjRef} {level index : UInt16} {fs : List Field}

/-- A call of this method has these fields as its result, and does nothing else. -/
def Device.Replies (d : Device K) (i : ObjRef) (level index : UInt16) (fs : List Field) : Prop :=
  ∀ c : Call K, c.dev = d → objectDispatch i level index c = reply 1 fs c

/-- A method that does not write is not stopped by the gate. -/
theorem gate_of_query (h : methodIsWrite (d.obj i).kind level index = false) :
    d.gate i level index = none := by
  unfold Device.gate
  dsimp only
  rw [h, Bool.and_false]
  rfl

theorem replies_of_handler {h : ObjRef → UInt16 → Handler K}
    (hq : methodIsWrite (d.obj i).kind level index = false)
    (hh : handlerFor (d.obj i).kind level = some h)
    (hcall : ∀ c : Call K, c.dev = d → h i index c = reply 1 fs c) :
    d.Replies i level index fs := by
  intro c hc
  rw [objectDispatch_of_handler hh (gate_of_query hq) hc, hcall c hc]

/-- The response of a method that only writes its results, `n` of them, when they fit. -/
theorem response_of_reply {room conn : ℕ} {cmd : Command} {rd : Reader} {n : UInt8}
    (hf : d.find cmd.target = some i)
    (h : ∀ c : Call K, c.dev = { d with activeConn := some conn } →
      objectDispatch i cmd.level cmd.index c = reply n fs c)
    (hfit : (answer room conn cmd rd d).overflow = false) :
    (answer room conn cmd rd d).response = ⟨cmd.handle, .ok, n, Field.encodeAll fs⟩ := by
  have heq := answer_of_dispatch (e := ⟨.ok, { d with activeConn := some conn }, fs, n⟩) room hf
    fun wr => h ⟨{ d with activeConn := some conn }, rd, wr, 0⟩ rfl
  rw [heq] at hfit ⊢
  have hparams := Effect.answer_params (fun hne => absurd rfl hne) cmd.handle rd hfit
  have hresponse (r : Response) (hhandle : r.handle = cmd.handle) (hst : r.status = .ok)
      (hpc : r.paramCount = n) (hps : r.params = Field.encodeAll fs) :
      r = ⟨cmd.handle, .ok, n, Field.encodeAll fs⟩ := by
    rw [← hhandle, ← hst, ← hpc, ← hps]
  exact hresponse _ rfl rfl rfl hparams

/-- The response to a query, when it fits. -/
theorem response_of_replies {room conn : ℕ} {cmd : Command} {rd : Reader}
    (hf : d.find cmd.target = some i)
    (h : ({ d with activeConn := some conn } : Device K).Replies i cmd.level cmd.index fs)
    (hfit : (answer room conn cmd rd d).overflow = false) :
    (answer room conn cmd rd d).response = ⟨cmd.handle, .ok, 1, Field.encodeAll fs⟩ :=
  response_of_reply hf h hfit

end Queries

end Aes70
