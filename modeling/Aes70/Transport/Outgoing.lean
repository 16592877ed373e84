import Aes70.Device.Delivery
import Aes70.Ocp1.Stores
import Aes70.Router.Framing
import Aes70.Transport.Rx

/-!
# Frames the device sends

Responses, notifications and keep-alives are built by three functions, each with its own way to fill
in the length fields. They all come to the same form.

* `outgoingPdu` : sync, version, PduSize, type, MessageCount and a body.
* `Framed K f` : the length fields of `f` are right, and it was built without overflow.
* `framed_response`, `framed_notification`, `framed_keepalive` : all frames are framed.
* `Device.Builds d cap w` : the writers in use while frames are built, sent or not.
* `inside_builds` : none of them leaves its buffer.
-/

namespace Aes70

open Handler

variable {K : Kconfig}

/-! ### The form of a frame -/

/-- A PDU with this type, message count and body. -/
def outgoingPdu (type : MsgType) (count : UInt16) (body : Bytes) : Bytes :=
  [ocp1SyncVal] ++ (wr16 ocp1ProtoVersion ++ (wr32 (UInt32.ofNat (9 + body.length)) ++
    ([type.code] ++ (wr16 count ++ body))))

section Form

variable {type : MsgType} {count : UInt16} {body : Bytes}

@[simp] theorem length_outgoingPdu : (outgoingPdu type count body).length = 10 + body.length := by
  simp only [outgoingPdu, List.length_append, length_wr16, length_wr32, List.length_singleton]
  omega

theorem drop_outgoingPdu : (outgoingPdu type count body).drop ocp1HeaderLen = body := by
  have hsplit : outgoingPdu type count body = ([ocp1SyncVal] ++ (wr16 ocp1ProtoVersion ++
      (wr32 (UInt32.ofNat (9 + body.length)) ++ ([type.code] ++ wr16 count)))) ++ body := by
    simp only [outgoingPdu, List.append_assoc]
  rw [hsplit]
  exact List.drop_left' (by simp [ocp1HeaderLen])

theorem type_outgoingPdu : (outgoingPdu type count body)[7]? = some type.code := by
  have hsplit : outgoingPdu type count body = ([ocp1SyncVal] ++ (wr16 ocp1ProtoVersion ++
      wr32 (UInt32.ofNat (9 + body.length)))) ++ ([type.code] ++ (wr16 count ++ body)) := by
    simp only [outgoingPdu, List.append_assoc]
  rw [hsplit, List.getElem?_append_right (by simp)]
  simp

theorem pduSize_outgoingPdu : ((outgoingPdu type count body).drop 3).take 4 =
    wr32 (UInt32.ofNat (9 + body.length)) := by
  have hsplit : outgoingPdu type count body = ([ocp1SyncVal] ++ wr16 ocp1ProtoVersion) ++
      (wr32 (UInt32.ofNat (9 + body.length)) ++ ([type.code] ++ (wr16 count ++ body))) := by
    simp only [outgoingPdu, List.append_assoc]
  rw [hsplit, List.drop_left' (by simp), List.take_left' (length_wr32 _)]

end Form

/-- A frame as it must be: it starts with the sync byte, its PduSize is the number of bytes behind
the first, and unless it is a keep-alive the sizes of its messages tile what follows the header. It
was written through a writer that did not overflow and never left its buffer. -/
structure Framed (K : Kconfig) (f : Bytes) : Prop where
  sync : f[0]? = some ocp1SyncVal
  pduSize : (rd32 ((f.drop 3).take 4)).toNat = f.length - 1
  body : f[7]? = some MsgType.keepalive.code ∨
    f[7]? ∈ [some MsgType.rsp.code, some MsgType.ntf.code] ∧
      ∃ n, Tiles (f.drop ocp1HeaderLen) n
  built : ∃ cap ∈ [K.txBufferSize, ocp1HeaderLen + 4], ∃ w, (Writer.init cap).Inside w ∧
    w.err = false ∧ w.buf = f

/-- A PDU of this form is framed, if its messages are. -/
theorem framed_outgoingPdu {type : MsgType} {count : UInt16} {body : Bytes}
    (hlen : body.length < 2 ^ 32 - 9)
    (hbody : type = .keepalive ∨ type ∈ [.rsp, .ntf] ∧ ∃ n, Tiles body n)
    (hbuilt : ∃ cap ∈ [K.txBufferSize, ocp1HeaderLen + 4], ∃ w, (Writer.init cap).Inside w ∧
      w.err = false ∧ w.buf = outgoingPdu type count body) :
    Framed K (outgoingPdu type count body) where
  sync := rfl
  pduSize := by
    rw [pduSize_outgoingPdu, rd32_wr32, UInt32.toNat_ofNat_of_lt' (show _ < 2 ^ 32 by omega),
      length_outgoingPdu]
    omega
  body := by
    rw [type_outgoingPdu, drop_outgoingPdu]
    obtain rfl | ⟨htype, htiles⟩ := hbody
    · exact .inl rfl
    · refine .inr ⟨?_, htiles⟩
      simp only [List.mem_cons, List.not_mem_nil, or_false] at htype ⊢
      obtain rfl | rfl := htype
      · exact .inl rfl
      · exact .inr rfl
  built := hbuilt

/-! ### Responses -/

section Response

variable {conn : ℕ} {cmd : Command} {d : Device K} {params : Reader}

/-- What a command does to the writer of its response stays inside the buffer. -/
theorem inside_execCommand (conn : ℕ) (cmd : Command) (d : Device K) (params : Reader) {wr : Writer}
    (hwr : wr.off ≤ wr.cap) : wr.Inside (execCommand conn cmd ⟨d, params, wr, 0⟩).2.wr := by
  obtain ⟨e, r, -, hx⟩ := execCommand_blind conn cmd d params
  rw [hx]
  exact Writer.Inside.refl.fields hwr e.fields

/-- Status, parameter count and size are patched inside the message. -/
theorem inside_patches {w w' : Writer} (h : w.Inside w') (hw : w.off ≤ w.cap) {pos : ℕ}
    (hpos : pos + 10 ≤ w'.off) (code pc : UInt8) (size : UInt32) :
    w.Inside (((w'.patch (pos + 8) [code]).patch (pos + 9) [pc]).patch pos (wr32 size)) := by
  have hstatus : pos + 8 + [code].length ≤ w'.off := by
    simp only [List.length_singleton]
    omega
  have hcount : pos + 9 + [pc].length ≤ (w'.patch (pos + 8) [code]).off := by
    rw [Writer.off_patch hstatus, List.length_singleton]
    exact hpos
  have hsize : pos + (wr32 size).length ≤
      ((w'.patch (pos + 8) [code]).patch (pos + 9) [pc]).off := by
    rw [Writer.off_patch hcount, Writer.off_patch hstatus, length_wr32]
    omega
  exact ((h.patch hw hstatus).patch hw hcount).patch hw hsize

/-- **A response is appended inside the buffer**, patches and all. -/
theorem inside_appendResponse (conn : ℕ) (cmd : Command) (params : Reader) (d : Device K)
    {resp : Writer} (hw : resp.off ≤ resp.cap) :
    resp.Inside (appendResponse conn cmd params d resp).2.2 := by
  obtain ⟨e, r, -, hx⟩ := execCommand_blind conn cmd d params
  rw [appendResponse_of_exec resp hx]
  unfold Effect.message
  dsimp only
  have hall : resp.Inside (resp.fields (placeholders cmd.handle ++ e.fields)) :=
    Writer.Inside.refl.fields hw _
  cases herr : (resp.fields (placeholders cmd.handle ++ e.fields)).err with
  | true =>
    simp only [herr, Bool.not_true, Bool.false_eq_true, and_false, if_false, if_true]
    exact hall
  | false =>
    obtain ⟨hok, hfit⟩ := Writer.fits_of_ok hw herr
    rw [encodeAll_append, List.length_append, Effect.length_placeholders] at hfit
    have hlen : (resp.fields (placeholders cmd.handle ++ e.fields)).off =
        resp.off + (10 + (Field.encodeAll e.fields).length) := by
      rw [Writer.fields_of_fits hok (by
        rw [encodeAll_append, List.length_append, Effect.length_placeholders]
        exact hfit)]
      simp [Writer.off, encodeAll_append, Effect.length_placeholders]
    -- where status and number of parameters are patched in
    have hoff (fs : List Field) (n : ℕ) (hn : (Field.encodeAll fs).length = n) (hle : n ≤ 10) :
        (resp.fields fs).off = resp.off + n := by
      rw [Writer.fields_of_fits hok (by rw [hn]; omega)]
      simp [Writer.off, hn]
    rw [hoff [.u32 0, .u32 cmd.handle] 8 rfl (by decide),
      hoff [.u32 0, .u32 cmd.handle, .u8 0] 9 rfl (by decide)]
    by_cases hst : e.status = .ok
    · simp only [hst, ne_eq, not_true_eq_false, false_and, if_false, herr, Bool.false_eq_true]
      exact inside_patches hall hw (by omega) _ _ _
    · have hback : resp.off + 9 + 1 ≤ (resp.fields (placeholders cmd.handle ++ e.fields)).off := by
        omega
      -- a failed command gives back what its handler wrote
      have herr' : ((resp.fields (placeholders cmd.handle ++ e.fields)).rewind
          (resp.off + 9 + 1)).err = false := herr
      simp only [hst, ne_eq, not_false_eq_true, true_and, Bool.not_false, if_true, herr',
        Bool.false_eq_true, if_false]
      refine inside_patches (hall.rewind hw hback) hw ?_ _ _ _
      rw [Writer.off_rewind hback]

variable (conn : ℕ)

/-- **So is a whole batch**, whatever was announced. -/
theorem inside_routeLoop (n : ℕ) (s : Router K) (hw : s.resp.off ≤ s.resp.cap) :
    s.resp.Inside (routeLoop conn true n s).resp := by
  induction n generalizing s with
  | zero => exact .refl
  | succ n ih =>
    unfold routeLoop
    split
    · exact .refl
    · next p _ =>
      have hone : s.resp.Inside (routeCommand conn true p s).resp :=
        inside_appendResponse conn p.cmd p.params { s.dev with activeConn := some conn } hw
      exact hone.trans (ih _ (hone.off_le hw).1)

/-- **A response PDU is framed.** -/
theorem framed_response (d : Device K) (msgCount : UInt16) (data : Ptr) (dataLen : ℕ)
    (h : (routeCommandPdu d conn .cmdRrq msgCount data dataLen K.txBufferSize).2 ≠ []) :
    Framed K (routeCommandPdu d conn .cmdRrq msgCount data dataLen K.txBufferSize).2 := by
  have hpdu := routeCommandPdu_pdu d conn msgCount data dataLen K.txBufferSize
  have hbuilt : ∃ w, (Writer.init K.txBufferSize).Inside w ∧ w.err = false ∧
      w.buf = (routeCommandPdu d conn .cmdRrq msgCount data dataLen K.txBufferSize).2 := by
    have hheader : (Writer.init K.txBufferSize).Inside
        ((Writer.init K.txBufferSize).fields (responseHeader msgCount)) :=
      Writer.Inside.refl.fields (Writer.off_init _) _
    have hroute := inside_routeLoop conn msgCount.toNat
      (⟨d, Reader.init data dataLen, (Writer.init K.txBufferSize).fields
        (responseHeader msgCount)⟩ : Router K) (hheader.off_le (Writer.off_init _)).1
    have hloop : (Writer.init K.txBufferSize).Inside
        (pduLoop d conn msgCount data dataLen K.txBufferSize).resp := hheader.trans hroute
    have hcontent := (pduLoop_answers d conn msgCount data dataLen K.txBufferSize).2
    rw [routeCommandPdu_eq] at h ⊢
    dsimp only at h ⊢
    have hok : (pduLoop d conn msgCount data dataLen K.txBufferSize).resp.err = false := by
      by_contra herr
      rw [if_pos (by simpa using herr)] at h
      exact h rfl
    rw [if_neg (by rw [hok]; exact Bool.false_ne_true)]
    -- the header is there, so its PduSize can be patched
    have hoff : 10 ≤ (pduLoop d conn msgCount data dataLen K.txBufferSize).resp.off := by
      rw [Writer.content_of_ok hok] at hcontent
      split_ifs at hcontent
      rw [Writer.off, Option.some.inj hcontent, List.length_append, length_responseHeader]
      exact Nat.le_add_right _ _
    have hsize : pdusizeAt + (wr32 (UInt32.ofNat
        ((pduLoop d conn msgCount data dataLen K.txBufferSize).resp.off -
          ocp1PdusizePrefix))).length ≤
            (pduLoop d conn msgCount data dataLen K.txBufferSize).resp.off := by
      rw [length_wr32]
      exact le_trans (by decide) hoff
    exact ⟨_, hloop.patch (Writer.off_init _) hsize, hok, rfl⟩
  rw [hpdu] at h hbuilt ⊢
  split_ifs at h hbuilt ⊢ with hfit
  · have hlen := hfit.1
    rw [← List.flatMap_map] at hlen
    have htx := K.txBufferSize_range.2
    refine framed_outgoingPdu (by omega) (.inr ⟨?_, _, tiles_responses ?_⟩) ⟨_, by simp, hbuilt⟩
    · exact List.mem_cons_self
    omega
  · exact absurd rfl h

end Response

/-! ### Notifications -/

section Notification

variable {d : Device K} {s : Subscription} {i : ObjRef} {level index : UInt16}

/-- A notification behind its size: subscriber, context and event data. -/
def notificationBody (d : Device K) (s : Subscription) (i : ObjRef) (level index : UInt16) :
    List Field :=
  [.u32 s.subOno, .u16 s.subMethodLevel, .u16 s.subMethodIndex, .u8 2, .blob s.context,
    .u32 (d.obj i).ono, .u16 1, .u16 1, .u16 level, .u16 index] ++
    (d.encodeProperty i level index).getD [] ++ [.u8 1]

/-- The only message of a notification PDU. -/
def notificationMessage (d : Device K) (s : Subscription) (i : ObjRef) (level index : UInt16) :
    Bytes :=
  wr32 (UInt32.ofNat (4 + (Field.encodeAll (notificationBody d s i level index)).length)) ++
    Field.encodeAll (notificationBody d s i level index)

/-- What `send_notification` writes before it patches the sizes. -/
theorem encodeAll_notificationFields : Field.encodeAll (d.notificationFields s i level index) =
    ([ocp1SyncVal] ++ wr16 ocp1ProtoVersion) ++ (wr32 0 ++ (([MsgType.ntf.code] ++ wr16 1) ++
      (wr32 0 ++ Field.encodeAll (notificationBody d s i level index)))) := by
  simp only [Device.notificationFields, notificationBody, Field.encodeAll, Field.encode,
    Field.pieces, List.flatMap_append, List.flatMap_cons, List.flatMap_nil, List.flatten_cons,
    List.flatten_nil, List.append_nil, List.append_assoc]

/-- Patching the two sizes of a notification. -/
theorem patch_notification (body : Bytes) (cap : ℕ) (size total : UInt32) :
    ((⟨([ocp1SyncVal] ++ wr16 ocp1ProtoVersion) ++ (wr32 0 ++ (([MsgType.ntf.code] ++ wr16 1) ++
      (wr32 0 ++ body))), cap, false⟩ : Writer).patch 10 (wr32 size)).patch 3 (wr32 total) =
        ⟨([ocp1SyncVal] ++ wr16 ocp1ProtoVersion) ++ (wr32 total ++ (([MsgType.ntf.code] ++
          wr16 1) ++ (wr32 size ++ body))), cap, false⟩ := by
  have h10 : 10 = (([ocp1SyncVal] ++ wr16 ocp1ProtoVersion) ++ (wr32 0 ++
      ([MsgType.ntf.code] ++ wr16 1))).length := by simp
  have h3 : 3 = ([ocp1SyncVal] ++ wr16 ocp1ProtoVersion).length := by simp
  have hsize := Writer.patch_append (w := ⟨([ocp1SyncVal] ++ wr16 ocp1ProtoVersion) ++ (wr32 0 ++
    (([MsgType.ntf.code] ++ wr16 1) ++ (wr32 0 ++ body))), cap, false⟩) (b := body) (c := wr32 0)
    (a := ([ocp1SyncVal] ++ wr16 ocp1ProtoVersion) ++ (wr32 0 ++ ([MsgType.ntf.code] ++ wr16 1)))
    (e := wr32 size) (by simp only [List.append_assoc]) (by simp)
  rw [← h10] at hsize
  rw [hsize]
  have htotal := Writer.patch_append (w := ⟨([ocp1SyncVal] ++ wr16 ocp1ProtoVersion) ++ (wr32 0 ++
    ([MsgType.ntf.code] ++ wr16 1)) ++ wr32 size ++ body, cap, false⟩) (c := wr32 0)
    (b := ([MsgType.ntf.code] ++ wr16 1) ++ (wr32 size ++ body))
    (a := [ocp1SyncVal] ++ wr16 ocp1ProtoVersion) (e := wr32 total)
    (by simp only [List.append_assoc]) (by simp)
  rw [← h3] at htotal
  rw [htotal]
  simp only [List.append_assoc]

/-- **A notification is framed**, and this is what it holds. -/
theorem notificationFrame_eq {f : Bytes} (h : d.notificationFrame s i level index = some f) :
    f = outgoingPdu .ntf 1 (notificationMessage d s i level index) ∧
      f.length ≤ K.txBufferSize ∧ ∃ w, (Writer.init K.txBufferSize).Inside w ∧
        w.err = false ∧ w.buf = f := by
  have htx := K.txBufferSize_range.1
  -- the offsets of the two sizes
  have hoff (fs : List Field) (n : ℕ) (hn : (Field.encodeAll fs).length = n) (hle : n ≤ 10) :
      ((Writer.init K.txBufferSize).fields fs).off = n := by
    rw [Writer.fields_of_fits rfl (by simp only [Writer.init, Writer.off, List.length_nil]; omega)]
    simpa [Writer.off, Writer.init] using hn
  have hpdusize : ((Writer.init K.txBufferSize).fields
      [.u8 ocp1SyncVal, .u16 ocp1ProtoVersion]).off = 3 := hoff _ 3 rfl (by decide)
  have hmsgsize : (((Writer.init K.txBufferSize).fields
      [.u8 ocp1SyncVal, .u16 ocp1ProtoVersion]).fields
        [.u32 0, .u8 MsgType.ntf.code, .u16 1]).off = 10 := by
    rw [← Writer.fields_append]
    exact hoff _ 10 rfl le_rfl
  unfold Device.notificationFrame at h
  dsimp only at h
  rw [hpdusize, hmsgsize] at h
  -- the writer before the patches
  have hall : ((((((Writer.init K.txBufferSize).fields [.u8 ocp1SyncVal, .u16 ocp1ProtoVersion]).fields
      [.u32 0, .u8 MsgType.ntf.code, .u16 1]).fields [.u32 0, .u32 s.subOno, .u16 s.subMethodLevel,
        .u16 s.subMethodIndex, .u8 2, .blob s.context, .u32 (d.obj i).ono, .u16 1, .u16 1,
        .u16 level, .u16 index]).fields ((d.encodeProperty i level index).getD [])).field (.u8 1)) =
      (Writer.init K.txBufferSize).fields (d.notificationFields s i level index) := by
    simp only [Device.notificationFields, Writer.fields_append]
    rfl
  rw [hall] at h
  split_ifs at h with herr
  obtain rfl := Option.some.inj h
  have hok : ((Writer.init K.txBufferSize).fields
      (d.notificationFields s i level index)).err = false := by simpa using herr
  obtain ⟨-, hfit⟩ := Writer.fits_of_ok (Writer.off_init _) hok
  have hinside : (Writer.init K.txBufferSize).Inside
      ((Writer.init K.txBufferSize).fields (d.notificationFields s i level index)) :=
    Writer.Inside.refl.fields (Writer.off_init _) _
  have hbuf : Field.encodeAll (d.notificationFields s i level index) = _ :=
    encodeAll_notificationFields
  rw [Writer.fields_of_fits rfl hfit] at hinside ⊢
  generalize Field.encodeAll (d.notificationFields s i level index) = bs at hbuf hfit hinside ⊢
  obtain rfl := hbuf
  unfold notificationMessage
  generalize Field.encodeAll (notificationBody d s i level index) = body at hfit hinside ⊢
  simp only [Writer.init, List.nil_append] at hinside hfit ⊢
  generalize hw : (⟨([ocp1SyncVal] ++ wr16 ocp1ProtoVersion) ++ (wr32 0 ++
    (([MsgType.ntf.code] ++ wr16 1) ++ (wr32 0 ++ body))), K.txBufferSize, false⟩ : Writer) = w
    at hinside ⊢
  have hoffw : w.off = 14 + body.length := by
    rw [← hw]
    simp only [Writer.off, List.length_append, length_wr16, length_wr32, List.length_singleton]
    omega
  have hmsg : 10 + (wr32 (UInt32.ofNat (w.off - 10))).length ≤ w.off := by
    rw [length_wr32, hoffw]
    omega
  have hpdu : 3 + (wr32 (UInt32.ofNat ((w.patch 10 (wr32 (UInt32.ofNat (w.off - 10)))).off -
      ocp1PdusizePrefix))).length ≤ (w.patch 10 (wr32 (UInt32.ofNat (w.off - 10)))).off := by
    rw [length_wr32, Writer.off_patch hmsg, hoffw]
    omega
  have hbuilt := (hinside.patch (Writer.off_init _) hmsg).patch (Writer.off_init _) hpdu
  have hpatched := patch_notification body K.txBufferSize (UInt32.ofNat (w.off - 10))
    (UInt32.ofNat ((w.patch 10 (wr32 (UInt32.ofNat (w.off - 10)))).off - ocp1PdusizePrefix))
  rw [hw] at hpatched
  refine ⟨?_, ?_, _, hbuilt, by rw [hpatched], rfl⟩
  · rw [hpatched, Writer.off_patch hmsg, hoffw]
    have hsize : 14 + body.length - 10 = 4 + body.length := by omega
    have htotal : 14 + body.length - ocp1PdusizePrefix = 9 + (4 + body.length) := by
      unfold ocp1PdusizePrefix
      omega
    rw [hsize, htotal]
    simp only [outgoingPdu, List.length_append, length_wr32, List.append_assoc]
  · have hle := (hbuilt.off_le (Writer.off_init _)).1
    rw [(hbuilt.off_le (Writer.off_init _)).2] at hle
    exact hle

theorem framed_notification {f : Bytes} (h : d.notificationFrame s i level index = some f) :
    Framed K f := by
  obtain ⟨hf, hlen, hbuilt⟩ := notificationFrame_eq h
  have htx := K.txBufferSize_range.2
  rw [hf] at hlen hbuilt ⊢
  rw [length_outgoingPdu] at hlen
  refine framed_outgoingPdu (by omega) (.inr ⟨by decide, 1, ?_⟩) ⟨_, by simp, hbuilt⟩
  have hmessage : (notificationMessage d s i level index).length =
      4 + (Field.encodeAll (notificationBody d s i level index)).length := by
    simp [notificationMessage]
  -- one message, whose size counts itself
  have hsize : (rd32 ((notificationMessage d s i level index).take 4)).toNat =
      (notificationMessage d s i level index).length := by
    have hhead : (notificationMessage d s i level index).take 4 = wr32 (UInt32.ofNat
        (4 + (Field.encodeAll (notificationBody d s i level index)).length)) :=
      List.take_left' (length_wr32 _)
    rw [hhead, rd32_wr32, hmessage, UInt32.toNat_ofNat_of_lt' (show _ < 2 ^ 32 by omega)]
  have htiles : Tiles (notificationMessage d s i level index ++ []) 1 :=
    .cons hsize (by omega) .nil
  rwa [List.append_nil] at htiles

end Notification

/-! ### Keep-alives -/

/-- A keep-alive with this heartbeat field. -/
theorem framed_heartbeat (K : Kconfig) {size : UInt32} {heartbeat : Field}
    (hsize : size = UInt32.ofNat (9 + heartbeat.size)) (hlen : heartbeat.size ≤ 4) :
    Framed K ((Writer.init (ocp1HeaderLen + 4)).fields [.u8 ocp1SyncVal, .u16 ocp1ProtoVersion,
      .u32 size, .u8 MsgType.keepalive.code, .u16 1, heartbeat]).buf := by
  have hform : Field.encodeAll [.u8 ocp1SyncVal, .u16 ocp1ProtoVersion, .u32 size,
      .u8 MsgType.keepalive.code, .u16 1, heartbeat] =
        outgoingPdu .keepalive 1 heartbeat.encode := by
    rw [outgoingPdu, heartbeat.length_encode, ← hsize]
    simp [Field.encodeAll, Field.encode, Field.pieces]
  have hfit : (Field.encodeAll [.u8 ocp1SyncVal, .u16 ocp1ProtoVersion, .u32 size,
      .u8 MsgType.keepalive.code, .u16 1, heartbeat]).length ≤ ocp1HeaderLen + 4 := by
    rw [hform, length_outgoingPdu, heartbeat.length_encode, ocp1HeaderLen]
    omega
  have hall : (Writer.init (ocp1HeaderLen + 4)).fields [.u8 ocp1SyncVal, .u16 ocp1ProtoVersion,
      .u32 size, .u8 MsgType.keepalive.code, .u16 1, heartbeat] =
        ⟨outgoingPdu .keepalive 1 heartbeat.encode, ocp1HeaderLen + 4, false⟩ := by
    rw [Writer.fields_of_fits rfl (by simpa [Writer.init, Writer.off] using hfit), hform]
    rfl
  have hinside : (Writer.init (ocp1HeaderLen + 4)).Inside
      ⟨outgoingPdu .keepalive 1 heartbeat.encode, ocp1HeaderLen + 4, false⟩ :=
    hall ▸ Writer.Inside.refl.fields (Writer.off_init _) _
  rw [hall]
  refine framed_outgoingPdu ?_ (.inl rfl) ⟨ocp1HeaderLen + 4, by simp, _, hinside, rfl, rfl⟩
  rw [heartbeat.length_encode]
  omega

theorem keepaliveFrame_eq (c : Conn) :
    ∃ body, keepaliveFrame c = outgoingPdu .keepalive 1 body ∧ body.length ≤ 4 := by
  unfold keepaliveFrame
  by_cases hwidth : c.kaWidth = 2
  · simp only [hwidth, if_true]
    exact ⟨(Field.u16 (c.heartbeatMs / 1000).toUInt16).encode, rfl,
      (Field.length_encode _).trans_le (by decide : 2 ≤ 4)⟩
  · simp only [hwidth, if_false]
    exact ⟨(Field.u32 c.heartbeatMs).encode, rfl, (Field.length_encode _).le⟩

/-- **A keep-alive is framed.** -/
theorem framed_keepalive (K : Kconfig) (c : Conn) : Framed K (keepaliveFrame c) := by
  unfold keepaliveFrame
  by_cases hwidth : c.kaWidth = 2
  · have hsize : (Field.u16 (c.heartbeatMs / 1000).toUInt16).size = 2 := rfl
    simp only [hwidth, if_true]
    exact framed_heartbeat K (by rw [hsize]; rfl) (by rw [hsize]; decide)
  · have hsize : (Field.u32 c.heartbeatMs).size = 4 := rfl
    have hne : (4 : UInt32) ≠ 2 := by decide
    simp only [hwidth, if_false, hne]
    exact framed_heartbeat K (by rw [hsize]; rfl) hsize.le

/-! ### Writers in use -/

/-- A writer the device uses, and what is left of it: for the responses of the first commands of a
batch, for a command without a response, for a notification. -/
inductive Device.Builds (d : Device K) : Writer → Writer → Prop
  | response (conn n : ℕ) (msgCount : UInt16) (data : Ptr) (dataLen : ℕ) : d.Builds
    (.init K.txBufferSize) (routeLoop conn true n ⟨d, Reader.init data dataLen,
      (Writer.init K.txBufferSize).fields (responseHeader msgCount)⟩).resp
  | silent (conn : ℕ) (cmd : Command) (params : Reader) :
    d.Builds (.init 64) (execCommand conn cmd ⟨d, params, .init 64, 0⟩).2.wr
  | notification (s : Subscription) (i : ObjRef) (level index : UInt16) :
    d.Builds (.init K.txBufferSize)
      ((Writer.init K.txBufferSize).fields (d.notificationFields s i level index))

/-- **No writer leaves its buffer**, overflow or not. -/
theorem inside_builds {d : Device K} {w w' : Writer} (h : d.Builds w w') : w.Inside w' := by
  cases h with
  | response conn n msgCount data dataLen =>
    have hheader : (Writer.init K.txBufferSize).Inside
        ((Writer.init K.txBufferSize).fields (responseHeader msgCount)) :=
      Writer.Inside.refl.fields (Writer.off_init _) _
    have hroute := inside_routeLoop conn n
      (⟨d, Reader.init data dataLen, (Writer.init K.txBufferSize).fields
        (responseHeader msgCount)⟩ : Router K) (hheader.off_le (Writer.off_init _)).1
    exact hheader.trans hroute
  | silent conn cmd params => exact inside_execCommand conn cmd d params (Writer.off_init _)
  | notification s i level index => exact Writer.Inside.refl.fields (Writer.off_init _) _

end Aes70
