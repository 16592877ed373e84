import Aes70.Transport.Conn

/-!
# Frame assembly and the stream

The frames handed over by `process_rx` do not depend on how the stream is cut into chunks.

* `RefParse` : the reference, a parse of the whole stream by the header layout.
* `rxFraming` : the loop of `process_rx` as a framing function.
* `recvAll` : the calls of `recv` and `process_rx` for one connection, other work in between.
* `recvAll_refParse` : its frames, its verdict and its buffer are those of the reference.
* `Device.receive_eq_recv` : the reception of the device is such a call.
-/

namespace Aes70

/-! ### The reference -/

/-- The fields of a frame header, in the order they are sent. -/
structure FrameHeader where
  sync : UInt8
  version : UInt16
  pduSize : UInt32
  mtype : UInt8
  mcount : UInt16

namespace FrameHeader

def encode (h : FrameHeader) : Bytes :=
  h.sync :: (wr16 h.version ++ (wr32 h.pduSize ++ h.mtype :: wr16 h.mcount))

/-- The size of the frame, header included: `PduSize` does not count the sync byte. The sum is one
of 32 bits. -/
def total (h : FrameHeader) : ℕ := (h.pduSize.toNat + 1) % 2 ^ 32

/-- The header of a frame that fits a buffer of `size` bytes. -/
def Valid (size : ℕ) (h : FrameHeader) : Prop := h.sync = 0x3B ∧ 10 ≤ h.total ∧ h.total ≤ size

instance {size : ℕ} {h : FrameHeader} : Decidable (h.Valid size) :=
  inferInstanceAs (Decidable (_ ∧ _))

@[simp] theorem length_encode (h : FrameHeader) : h.encode.length = 10 := by simp [encode]

/-- Any ten bytes are a header. -/
theorem exists_encode {bs : Bytes} (h : 10 ≤ bs.length) :
    ∃ (hd : FrameHeader) (more : Bytes), bs = hd.encode ++ more := by
  match bs, h with
  | sync :: v₀ :: v₁ :: s₀ :: s₁ :: s₂ :: s₃ :: mtype :: c₀ :: c₁ :: more, _ =>
    refine ⟨⟨sync, rd16 [v₀, v₁], rd32 [s₀, s₁, s₂, s₃], mtype, rd16 [c₀, c₁]⟩, more, ?_⟩
    rw [encode, wr16_rd16 rfl, wr32_rd32 rfl, wr16_rd16 rfl]
    rfl

end FrameHeader

/-- **The reference parse** of a stream by a receiver with a buffer of `size` bytes: the frames, the
bytes that wait for more, and `false` if the stream is given up. -/
inductive RefParse (size : ℕ) : Bytes → List Frame → Bytes → Bool → Prop
  /-- A header is incomplete. -/
  | header {bs : Bytes} : bs.length < 10 → RefParse size bs [] bs true
  /-- A header is complete and invalid. -/
  | invalid {h : FrameHeader} {more : Bytes} :
    ¬h.Valid size → RefParse size (h.encode ++ more) [] (h.encode ++ more) false
  /-- A body is incomplete. -/
  | body {h : FrameHeader} {front : Bytes} : h.Valid size → front.length < h.total - 10 →
    RefParse size (h.encode ++ front) [] (h.encode ++ front) true
  /-- A header is followed by its body. -/
  | frame {h : FrameHeader} {body more rest : Bytes} {fs : List Frame} {ok : Bool} :
    h.Valid size → body.length = h.total - 10 → RefParse size more fs rest ok →
    RefParse size (h.encode ++ (body ++ more)) (⟨h.mtype, h.mcount, body⟩ :: fs) rest ok

/-! ### The loop as a framing function -/

section Framing

variable {size : ℕ}

theorem frameTotal_encode (h : FrameHeader) (more : Bytes) :
    frameTotal (h.encode ++ more) = h.total := by
  have hsize : ((h.encode ++ more).drop 3).take 4 = wr32 h.pduSize := by
    have hfront : h.encode ++ more =
        (h.sync :: wr16 h.version) ++ (wr32 h.pduSize ++ (h.mtype :: wr16 h.mcount ++ more)) := by
      simp [FrameHeader.encode]
    rw [hfront, List.drop_left' (by simp), List.take_left' (by simp)]
  rw [frameTotal, hsize, rd32_wr32]
  rfl

theorem mcount_encode (h : FrameHeader) (more : Bytes) :
    rd16 (((h.encode ++ more).drop 8).take 2) = h.mcount := by
  have hfront : h.encode ++ more =
      (h.sync :: (wr16 h.version ++ (wr32 h.pduSize ++ [h.mtype]))) ++ (wr16 h.mcount ++ more) := by
    simp [FrameHeader.encode]
  rw [hfront, List.drop_left' (by simp), List.take_left' (by simp), rd16_wr16]

theorem mtype_encode (h : FrameHeader) (more : Bytes) :
    (h.encode ++ more).getD 7 0 = h.mtype := by
  have hfront : h.encode ++ more =
      (h.sync :: (wr16 h.version ++ wr32 h.pduSize)) ++ (h.mtype :: (wr16 h.mcount ++ more)) := by
    simp [FrameHeader.encode]
  rw [hfront, List.getD_eq_getElem?_getD, List.getElem?_append_right (by simp)]
  simp

/-- The loop at a complete header. -/
theorem rxHead_encode (h : FrameHeader) (more : Bytes) : rxHead size (h.encode ++ more) =
    if ¬h.Valid size then .drop
    else if more.length < h.total - 10 then .wait
    else .frame h.total ⟨h.mtype, h.mcount, more.take (h.total - 10)⟩ := by
  have hlen : (h.encode ++ more).length = 10 + more.length := by simp
  rw [rxHead, frameTotal_encode, mcount_encode, mtype_encode, hlen]
  rw [if_neg (by simp [ocp1HeaderLen] : ¬10 + more.length < ocp1HeaderLen)]
  have hsync : (h.encode ++ more).getD 0 0 = h.sync := rfl
  rw [hsync]
  unfold FrameHeader.Valid ocp1HeaderLen ocp1SyncVal
  by_cases hs : h.sync = 0x3B
  · by_cases ht : 10 ≤ h.total ∧ h.total ≤ size
    · have htake : ((h.encode ++ more).take h.total).drop 10 = more.take (h.total - 10) := by
        rw [List.drop_take, List.drop_left' h.length_encode]
      rw [if_neg (not_not.2 hs), if_neg (by omega), if_neg (not_not.2 ⟨hs, ht⟩), htake]
      exact if_congr (by omega) rfl rfl
    · rw [if_neg (not_not.2 hs), if_pos (by omega), if_pos (fun hv => ht hv.2)]
  · rw [if_pos hs, if_pos (fun hv => hs hv.1)]

theorem rxHead_of_short {bs : Bytes} (h : bs.length < 10) : rxHead size bs = .wait := if_pos h

theorem rxHead_invalid {h : FrameHeader} (hv : ¬h.Valid size) (more : Bytes) :
    rxHead size (h.encode ++ more) = .drop := by
  rw [rxHead_encode, if_pos hv]

theorem rxHead_body {h : FrameHeader} {front : Bytes} (hv : h.Valid size)
    (hlen : front.length < h.total - 10) : rxHead size (h.encode ++ front) = .wait := by
  rw [rxHead_encode, if_neg (not_not.2 hv), if_pos hlen]

theorem rxHead_frame {h : FrameHeader} {body : Bytes} (hv : h.Valid size)
    (hlen : body.length = h.total - 10) (more : Bytes) :
    rxHead size (h.encode ++ (body ++ more)) = .frame h.total ⟨h.mtype, h.mcount, body⟩ := by
  rw [rxHead_encode, if_neg (not_not.2 hv), if_neg (by rw [List.length_append]; omega),
    List.take_left' hlen]

/-- What the loop finds, by the layout of the bytes. -/
theorem rxHead_cases (size : ℕ) (bs : Bytes) :
    (bs.length < 10 ∧ rxHead size bs = .wait) ∨
      ∃ (h : FrameHeader) (more : Bytes), bs = h.encode ++ more ∧
        ((¬h.Valid size ∧ rxHead size bs = .drop) ∨
          (h.Valid size ∧ more.length < h.total - 10 ∧ rxHead size bs = .wait) ∨
          ∃ body post, more = body ++ post ∧ h.Valid size ∧ body.length = h.total - 10 ∧
            rxHead size bs = .frame h.total ⟨h.mtype, h.mcount, body⟩) := by
  by_cases hlen : bs.length < 10
  · exact .inl ⟨hlen, rxHead_of_short hlen⟩
  · obtain ⟨h, more, rfl⟩ := FrameHeader.exists_encode (not_lt.1 hlen)
    refine .inr ⟨h, more, rfl, ?_⟩
    by_cases hv : h.Valid size
    · by_cases hbody : more.length < h.total - 10
      · exact .inr (.inl ⟨hv, hbody, rxHead_body hv hbody⟩)
      · have hcut : (more.take (h.total - 10)).length = h.total - 10 := by
          rw [List.length_take]
          omega
        refine .inr (.inr ⟨_, _, (List.take_append_drop _ _).symm, hv, hcut, ?_⟩)
        have := rxHead_frame hv hcut (more.drop (h.total - 10))
        rwa [List.take_append_drop] at this
    · exact .inl ⟨hv, rxHead_invalid hv more⟩

theorem rxHead_append_frame {bs : Bytes} {n : ℕ} {f : Frame} (more : Bytes)
    (h : rxHead size bs = .frame n f) : rxHead size (bs ++ more) = .frame n f := by
  rcases rxHead_cases size bs with
    ⟨-, hw⟩ | ⟨hd, front, rfl, ⟨-, hw⟩ | ⟨-, -, hw⟩ | ⟨body, post, rfl, hv, hlen, hf⟩⟩
  · rw [hw] at h; cases h
  · rw [hw] at h; cases h
  · rw [hw] at h; cases h
  · rw [← h, hf, List.append_assoc, List.append_assoc]
    exact rxHead_frame hv hlen _

theorem rxHead_append_drop {bs : Bytes} (more : Bytes) (h : rxHead size bs = .drop) :
    rxHead size (bs ++ more) = .drop := by
  rcases rxHead_cases size bs with
    ⟨-, hw⟩ | ⟨hd, front, rfl, ⟨hv, -⟩ | ⟨-, -, hw⟩ | ⟨body, post, rfl, -, -, hf⟩⟩
  · rw [hw] at h; cases h
  · rw [List.append_assoc]
    exact rxHead_invalid hv _
  · rw [hw] at h; cases h
  · rw [hf] at h; cases h

end Framing

/-- The loop of `process_rx` as a framing function. -/
def rxFraming (size : ℕ) : Framing UInt8 Frame where
  head := rxHead size
  frame_pos := rxHead_frame_pos
  frame_append := rxHead_append_frame
  drop_append := rxHead_append_drop

section Parse

variable {size : ℕ}

/-- A reference parse is what the loop computes. -/
theorem RefParse.parse_eq {bs rest : Bytes} {fs : List Frame} {ok : Bool}
    (h : RefParse size bs fs rest ok) : (rxFraming size).parse bs = (fs, rest, ok) := by
  induction h with
  | header h => exact Framing.parse_of_wait (rxHead_of_short h)
  | invalid hv => exact Framing.parse_of_drop (rxHead_invalid hv _)
  | body hv hlen => exact Framing.parse_of_wait (rxHead_body hv hlen)
  | @frame h body more rest fs ok hv hlen _ ih =>
    have htotal : (h.encode ++ body).length = h.total := by
      have := hv.2.1
      rw [List.length_append, h.length_encode, hlen]
      omega
    have hdrop : (h.encode ++ (body ++ more)).drop h.total = more := by
      rw [← List.append_assoc, List.drop_left' htotal]
    rw [Framing.parse_of_frame (rxHead_frame hv hlen more), hdrop, ih]

/-- Every stream has a reference parse. -/
theorem exists_refParse (size : ℕ) (bs : Bytes) :
    ∃ fs rest ok, RefParse size bs fs rest ok := by
  induction h : bs.length using Nat.strongRecOn generalizing bs with
  | ind len ih =>
    rcases rxHead_cases size bs with
      ⟨hlen, -⟩ | ⟨hd, more, rfl, ⟨hv, -⟩ | ⟨hv, hlen, -⟩ | ⟨body, post, rfl, hv, hlen, -⟩⟩
    · exact ⟨_, _, _, .header hlen⟩
    · exact ⟨_, _, _, .invalid hv⟩
    · exact ⟨_, _, _, .body hv hlen⟩
    · have hlt : post.length < len := by
        rw [← h, List.length_append, List.length_append, hd.length_encode]
        omega
      obtain ⟨fs, rest, ok, hpost⟩ := ih _ hlt post rfl
      exact ⟨_, _, _, .frame hv hlen hpost⟩

theorem refParse_parse (size : ℕ) (bs : Bytes) : RefParse size bs ((rxFraming size).parse bs).1
    ((rxFraming size).parse bs).2.1 ((rxFraming size).parse bs).2.2 := by
  obtain ⟨fs, rest, ok, h⟩ := exists_refParse size bs
  rwa [h.parse_eq]

/-- **A stream has one reference parse.** -/
theorem RefParse.unique {bs rest rest' : Bytes} {fs fs' : List Frame} {ok ok' : Bool}
    (h : RefParse size bs fs rest ok) (h' : RefParse size bs fs' rest' ok') :
    fs = fs' ∧ rest = rest' ∧ ok = ok' := by
  have heq := h.parse_eq.symm.trans h'.parse_eq
  simpa using heq

end Parse

/-! ### The loop over a handler -/

section Loop

variable {σ : Type} {size : ℕ} {handle : Frame → Ptr → σ → σ} {junk : Ptr} {bs : Bytes} {s : σ}

theorem rxLoop_of_wait (h : rxHead size bs = .wait) :
    rxLoop size handle junk bs s = (s, bs, true) := by
  rw [rxLoop]
  split <;> simp_all

theorem rxLoop_of_drop (h : rxHead size bs = .drop) :
    rxLoop size handle junk bs s = (s, bs, false) := by
  rw [rxLoop]
  split <;> simp_all

theorem rxLoop_of_frame {n : ℕ} {f : Frame} (h : rxHead size bs = .frame n f) :
    rxLoop size handle junk bs s =
      rxLoop size handle junk (bs.drop n) (handle f (Ptr.ofBytes (bs.drop n) junk) s) := by
  rw [rxLoop]
  split <;> simp_all

variable (handle) in
/-- A frame handler that also writes down the frames it is handed. -/
def record (f : Frame) (mem : Ptr) (s : σ × List Frame) : σ × List Frame :=
  (handle f mem s.1, s.2 ++ [f])

/-- What every frame keeps, the loop over the frames keeps. -/
theorem rxLoop_keeps {P : σ → Prop} (h : ∀ f mem s, P s → P (handle f mem s)) (bs : Bytes) {s : σ}
    (hs : P s) : P (rxLoop size handle junk bs s).1 := by
  induction hlen : bs.length using Nat.strongRecOn generalizing bs s with
  | ind len ih =>
    subst hlen
    cases hhead : rxHead size bs with
    | wait => rwa [rxLoop_of_wait hhead]
    | drop => rwa [rxLoop_of_drop hhead]
    | frame n f =>
      have hpos := rxHead_frame_pos hhead
      rw [rxLoop_of_frame hhead]
      exact ih _ (by rw [List.length_drop]; omega) _ (h _ _ _ hs) rfl

/-- The loop hands over the frames of the parse and leaves its rest. -/
theorem rxLoop_record (s : σ × List Frame) : rxLoop size (record handle) junk bs s =
    (((rxLoop size handle junk bs s.1).1, s.2 ++ ((rxFraming size).parse bs).1),
      ((rxFraming size).parse bs).2) := by
  induction bs using (rxFraming size).induction generalizing s with
  | wait bs h =>
    rw [rxLoop_of_wait h, rxLoop_of_wait h, Framing.parse_of_wait h, List.append_nil]
  | drop bs h =>
    rw [rxLoop_of_drop h, rxLoop_of_drop h, Framing.parse_of_drop h, List.append_nil]
  | frame bs n f h ih =>
    rw [rxLoop_of_frame h, rxLoop_of_frame h, Framing.parse_of_frame h, ih, record,
      List.append_assoc]
    rfl

/-- The loop leaves the rest of the parse, whatever the handler does. -/
theorem rxLoop_rest : (rxLoop size handle junk bs s).2 = ((rxFraming size).parse bs).2 := by
  induction bs using (rxFraming size).induction generalizing s with
  | wait bs h => rw [rxLoop_of_wait h, Framing.parse_of_wait h]
  | drop bs h => rw [rxLoop_of_drop h, Framing.parse_of_drop h]
  | frame bs n f h ih => rw [rxLoop_of_frame h, Framing.parse_of_frame h, ih]

/-- What is left to wait with never fills a buffer. -/
theorem length_rest_lt (hsize : 10 ≤ size) (hok : ((rxFraming size).parse bs).2.2 = true) :
    ((rxFraming size).parse bs).2.1.length < size := by
  have hwait := Framing.head_rest bs hok
  generalize ((rxFraming size).parse bs).2.1 = rest at hwait
  rcases rxHead_cases size rest with
    ⟨hshort, -⟩ | ⟨hd, more, rfl, ⟨-, hw⟩ | ⟨hv, hbody, -⟩ | ⟨_, _, -, -, -, hw⟩⟩
  · omega
  · cases hwait.symm.trans hw
  · have := hv.2
    rw [List.length_append, hd.length_encode]
    omega
  · cases hwait.symm.trans hw

/-- **The check for a full buffer never fires.** -/
theorem processRx_eq_rxLoop (hsize : 10 ≤ size) :
    processRx size handle junk bs s = rxLoop size handle junk bs s := by
  have hrest : (rxLoop size handle junk bs s).2 = _ := rxLoop_rest
  have hlt := @length_rest_lt size bs hsize
  rw [← hrest] at hlt
  unfold processRx
  generalize rxLoop size handle junk bs s = r at hlt
  obtain ⟨s, rest, ok⟩ := r
  cases ok with
  | false => rfl
  | true =>
    have := hlt rfl
    simp [this.ne]

end Loop

/-! ### The calls of `recv` -/

/-- What a call of `recv` delivers. -/
structure Chunk (σ : Type) where
  bytes : Bytes
  /-- The memory behind the filled part of the buffer. -/
  junk : Ptr
  /-- What else the device does before the chunk is processed. -/
  before : σ → σ

/-- A connection and the state its frames are handled in. -/
structure Received (σ : Type) where
  state : σ
  /-- The receive buffer. -/
  rx : Bytes
  /-- The frames handed over so far. -/
  frames : List Frame
  /-- The connection is not dropped. -/
  keep : Bool

section Recv

variable {σ : Type} (size : ℕ) (handle : Frame → Ptr → σ → σ)

/-- One call of `recv`, and of `process_rx` on what it delivers. -/
def recv (c : Chunk σ) (r : Received σ) : Received σ :=
  let ((state, frames), rx, keep) :=
    processRx size (record handle) c.junk (r.rx ++ c.bytes) (c.before r.state, r.frames)
  { state, rx, frames, keep }

/-- One call after the other, until the connection is dropped. -/
def recvAll : List (Chunk σ) → Received σ → Received σ
  | [], r => r
  | c :: cs, r => if (recv size handle c r).keep then recvAll cs (recv size handle c r)
    else recv size handle c r

variable {size handle}

theorem recv_eq {c : Chunk σ} {r : Received σ} (hsize : 10 ≤ size) : recv size handle c r =
      { state := (rxLoop size handle c.junk (r.rx ++ c.bytes) (c.before r.state)).1
        rx := ((rxFraming size).parse (r.rx ++ c.bytes)).2.1
        frames := r.frames ++ ((rxFraming size).parse (r.rx ++ c.bytes)).1
        keep := ((rxFraming size).parse (r.rx ++ c.bytes)).2.2 } := by
  rw [recv, processRx_eq_rxLoop hsize, rxLoop_record]

/-- The calls feed the chunks to the framing function, and a connection that is kept has room for
the next one. -/
theorem recvAll_feed (handle : Frame → Ptr → σ → σ) (cs : List (Chunk σ)) {r : Received σ}
    (hsize : 10 ≤ size) (hr : r.rx.length < size) (hkeep : r.keep = true) :
    let t := recvAll size handle cs r
    let fed := (rxFraming size).feed (cs.map Chunk.bytes) r.rx
    t.frames = r.frames ++ fed.1 ∧ t.rx = fed.2.1 ∧ t.keep = fed.2.2 ∧
      (t.keep = true → t.rx.length < size) := by
  induction cs generalizing r with
  | nil => simp [recvAll, Framing.feed, hkeep, hr]
  | cons c cs ih =>
    simp only [recvAll, recv_eq hsize, List.map_cons, Framing.feed]
    split
    case isTrue hok =>
      obtain ⟨hframes, hrx, hkeep, hlt⟩ := ih
        (r := ⟨_, _, r.frames ++ ((rxFraming size).parse (r.rx ++ c.bytes)).1, _⟩)
        (length_rest_lt hsize hok) hok
      exact ⟨by rw [hframes, List.append_assoc], hrx, hkeep, hlt⟩
    case isFalse hok => exact ⟨rfl, rfl, rfl, fun h => absurd h hok⟩

end Recv

/-- A fresh connection. -/
def Received.start {σ : Type} (state : σ) : Received σ where
  state
  rx := []
  frames := []
  keep := true

/-- **Assembly does not depend on the chunks**: however a stream is cut, and whatever the device
does in between, the frames handed over and the verdict are those of the reference parse of the
whole stream. A connection that is kept holds the rest of the stream and has room for more, and the
check for a full buffer never decides anything. -/
theorem recvAll_refParse (K : Kconfig) {σ : Type} (handle : Frame → Ptr → σ → σ)
    (cs : List (Chunk σ)) (s : σ) :
    let r := recvAll K.rxBufferSize handle cs (.start s)
    (∃ rest, RefParse K.rxBufferSize (cs.map Chunk.bytes).flatten r.frames rest r.keep ∧
      (r.keep = true → r.rx = rest ∧ r.rx.length < K.rxBufferSize)) ∧
    ∀ (bs : Bytes) (junk : Ptr) (s : σ),
      processRx K.rxBufferSize handle junk bs s = rxLoop K.rxBufferSize handle junk bs s := by
  intro r
  have hten : ([] : Bytes).length < 10 := by decide
  have hsize : 10 ≤ K.rxBufferSize := le_trans (by decide) K.rxBufferSize_range.1
  have hstart : (rxFraming K.rxBufferSize).head [] = .wait :=
    show rxHead K.rxBufferSize [] = .wait from rxHead_of_short hten
  obtain ⟨hframes, hrx, hkeep, hlt⟩ := recvAll_feed handle cs (r := .start s)
    hsize (Nat.lt_of_lt_of_le hten hsize) rfl
  obtain ⟨hfs, hok, hrest⟩ := (rxFraming K.rxBufferSize).feed_eq (cs.map Chunk.bytes) hstart
  refine ⟨⟨_, ?_, fun hr => ⟨hrx.trans (hrest (hkeep.symm.trans hr)), hlt hr⟩⟩,
    fun _ _ _ => processRx_eq_rxLoop hsize⟩
  have hparse := refParse_parse K.rxBufferSize (cs.map Chunk.bytes).flatten
  rwa [show r.frames = _ from hframes.trans hfs, show r.keep = _ from hkeep.trans hok]

namespace Device

variable {K : Kconfig}

/-- The reception of the device is such a call, with its own frame handler. -/
theorem receive_eq_recv (d : Device K) (c : Fin K.maxConnections) (now : ℤ) {bs : Bytes}
    (junk : Ptr) (fs : List Frame) (hpos : bs ≠ [])
    (hroom : bs.length ≤ K.rxBufferSize - (d.conns c).rx.length) :
    let arrive (d : Device K) := d.modifyConn c fun e => { e with rx := e.rx ++ bs, lastRxUs := now }
    let r := recv K.rxBufferSize (handleFrame c) ⟨bs, junk, arrive⟩ ⟨d, (d.conns c).rx, fs, true⟩
    d.receive c now bs junk = (r.state.modifyConn c fun e => { e with rx := r.rx }, r.keep) := by
  intro arrive r
  have hsize : 10 ≤ K.rxBufferSize := le_trans (by decide) K.rxBufferSize_range.1
  have hrx : ((arrive d).conns c).rx = (d.conns c).rx ++ bs := by
    simp [arrive, modifyConn]
  have hrest : (rxLoop K.rxBufferSize (handleFrame c) junk ((d.conns c).rx ++ bs) (arrive d)).2 = _ :=
    rxLoop_rest
  rw [show r = _ from recv_eq hsize, receive, List.take_of_length_le hroom, if_neg hpos, processRx,
    show d.modifyConn c _ = arrive d from rfl, hrx, processRx_eq_rxLoop hsize, ← hrest]

/-- A read call that delivers exactly one frame hands it over and leaves the buffer empty. -/
theorem receive_frame {d : Device K} {c : Fin K.maxConnections} (now : ℤ) {bs : Bytes} (junk : Ptr)
    {f : Frame} (hrx : (d.conns c).rx = []) (hlen : bs.length ≤ K.rxBufferSize)
    (hhead : rxHead K.rxBufferSize bs = .frame bs.length f) : d.receive c now bs junk =
      (((d.modifyConn c fun e => { e with rx := bs, lastRxUs := now }).handleFrame c f
        (Ptr.ofBytes [] junk)).modifyConn c fun e => { e with rx := [] }, true) := by
  have hsize := K.rxBufferSize_range.1
  have hpos := rxHead_frame_pos hhead
  have hfilled : (d.modifyConn c fun e => { e with rx := e.rx ++ bs, lastRxUs := now }) =
      d.modifyConn c fun e => { e with rx := bs, lastRxUs := now } := by
    simp [modifyConn, hrx]
  have hloop (s : Device K) : rxLoop K.rxBufferSize (Device.handleFrame c) junk bs s =
      (s.handleFrame c f (Ptr.ofBytes [] junk), [], true) := by
    rw [rxLoop_of_frame hhead, List.drop_length, rxLoop_of_wait (rxHead_of_short (by decide))]
  have hbuf : ((d.modifyConn c fun e => { e with rx := bs, lastRxUs := now }).conns c).rx = bs := by
    simp [modifyConn]
  have hroom : bs.take (K.rxBufferSize - ([] : Bytes).length) = bs := List.take_of_length_le hlen
  unfold receive
  rw [hrx, hroom]
  dsimp only
  rw [if_neg (List.ne_nil_of_length_pos hpos.1), hfilled]
  unfold processRx Aes70.processRx
  rw [hbuf, hloop]
  simp only [List.length_nil, Prod.mk.injEq, true_and, Bool.true_and, decide_eq_true_eq]
  omega

/-- So does the turn of a connection in the clear that has nothing left to parse. -/
theorem serviceConn_frame {d : Device K} {c : Fin K.maxConnections} (now : ℤ) {bs : Bytes}
    (junk : Ptr) {f : Frame} (handshake : HandshakeResult) (answer : Bool)
    (h : (d.conns c).inUse = true ∧ (d.conns c).handshaking = false ∧ (d.conns c).tls = false ∧
      (d.conns c).rx = []) (hlen : bs.length ≤ K.rxBufferSize)
    (hhead : rxHead K.rxBufferSize bs = .frame bs.length f) :
    d.serviceConn c now ⟨true, handshake, answer, [.data bs junk]⟩ =
      ((d.modifyConn c fun e => { e with rx := bs, lastRxUs := now }).handleFrame c f
        (Ptr.ofBytes [] junk)).modifyConn c fun e => { e with rx := [] } := by
  obtain ⟨huse, hshake, htls, hrx⟩ := h
  unfold serviceConn
  rw [huse, hshake, htls]
  change closeUnless c (d.receive c now bs junk) = _
  rw [receive_frame now junk hrx hlen hhead]
  rfl

end Device

end Aes70
