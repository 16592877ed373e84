import Aes70.Router.Message
import Aes70.Server.Machine

/-!
# The message count of a Response PDU

A Response PDU announces the messages that follow its header. The router writes the count of the
request there before it has looked at the body, and stops at the first command that is not
complete.

* `Tiles bs n` : `bs` is a sequence of `n` messages, each of the size its first four bytes say.
* `countMatches_iff` : the count is right exactly when the body holds the commands announced.
-/

namespace Aes70

variable {K : Kconfig}

/-- The bytes are `n` messages in a row; a message starts with its size, which counts itself. -/
inductive Tiles : Bytes → ℕ → Prop
  | nil : Tiles [] 0
  | cons {m rest : Bytes} {n : ℕ} (hsize : (rd32 (m.take 4)).toNat = m.length) (h4 : 4 ≤ m.length)
    (h : Tiles rest n) : Tiles (m ++ rest) (n + 1)

/-- Bytes are tiled by messages in one way only. -/
theorem Tiles.unique {bs : Bytes} {n n' : ℕ} (h : Tiles bs n) (h' : Tiles bs n') : n = n' := by
  induction h generalizing n' with
  | nil =>
    generalize hbs : ([] : Bytes) = bs' at h'
    cases h' with
    | nil => rfl
    | cons _ h4 _ =>
      simp [(List.append_eq_nil_iff.mp hbs.symm).1] at h4
  | @cons m rest n hsize h4 _ ih =>
    generalize hbs : m ++ rest = bs' at h'
    cases h' with
    | nil => simp [(List.append_eq_nil_iff.mp hbs).1] at h4
    | @cons m' rest' n' hsize' h4' h' =>
      have hhead : m.take 4 = m'.take 4 := by
        rw [← List.take_append_of_le_length h4, hbs, List.take_append_of_le_length h4']
      have hlen : m.length = m'.length := by rw [← hsize, ← hsize', hhead]
      obtain ⟨-, rfl⟩ := List.append_inj hbs hlen
      rw [ih h']

/-- The MessageCount field of a PDU. -/
def messageCount (pdu : Bytes) : ℕ := (rd16 ((pdu.drop 8).take 2)).toNat

/-- The MessageCount field says how many messages follow the header. -/
def CountMatches (pdu : Bytes) : Prop := ∃ n, Tiles (pdu.drop ocp1HeaderLen) n ∧ messageCount pdu = n

theorem tiles_responses {rs : List Response} (h : (rs.flatMap Response.encode).length < 2 ^ 32) :
    Tiles (rs.flatMap Response.encode) rs.length := by
  induction rs with
  | nil => exact .nil
  | cons r rs ih =>
    rw [List.flatMap_cons, List.length_append, Response.length_encode] at h
    refine .cons ?_ ?_ (ih (by omega))
    · have hhead : r.encode.take 4 = wr32 (UInt32.ofNat (10 + r.params.length)) := by
        rw [Response.encode, List.take_append_of_le_length (by simp)]
        exact List.take_of_length_le (by simp)
      rw [hhead, rd32_wr32, Response.length_encode,
        UInt32.toNat_ofNat_of_lt' (show _ < 2 ^ 32 by omega)]
    · rw [Response.length_encode]
      omega

/-- The header up to the message count. -/
def headerStart (n : ℕ) : Bytes :=
  [ocp1SyncVal] ++ (wr16 ocp1ProtoVersion ++ (wr32 (UInt32.ofNat n) ++ [MsgType.rsp.code]))

theorem responsePdu_eq (msgCount : UInt16) (rs : List Response) :
    responsePdu msgCount rs = headerStart (9 + (rs.flatMap Response.encode).length) ++
      (wr16 msgCount ++ rs.flatMap Response.encode) := by
  simp only [responsePdu, headerStart, List.append_assoc]

theorem length_headerStart (n : ℕ) : (headerStart n).length = 8 := by simp [headerStart]

theorem drop_responsePdu (msgCount : UInt16) (rs : List Response) :
    (responsePdu msgCount rs).drop ocp1HeaderLen = rs.flatMap Response.encode := by
  rw [responsePdu_eq, ← List.append_assoc]
  exact List.drop_left' (by simp [length_headerStart, ocp1HeaderLen])

theorem messageCount_responsePdu (msgCount : UInt16) (rs : List Response) :
    messageCount (responsePdu msgCount rs) = msgCount.toNat := by
  rw [messageCount, responsePdu_eq, List.drop_left' (length_headerStart _),
    List.take_left' (length_wr16 _), rd16_wr16]

theorem length_answers (room conn : ℕ) (qs : List (Command × Reader)) (d : Device K) :
    (answers room conn qs d).1.length = qs.length := by
  induction qs generalizing d with
  | nil => rfl
  | cons q qs ih => exact congrArg (· + 1) (ih _)

/-- The responses of a PDU are counted right when there is one for each command announced. -/
theorem countMatches_responsePdu {msgCount : UInt16} {rs : List Response}
    (h : (rs.flatMap Response.encode).length < 2 ^ 32) :
    CountMatches (responsePdu msgCount rs) ↔ rs.length = msgCount.toNat := by
  unfold CountMatches
  rw [drop_responsePdu, messageCount_responsePdu]
  constructor
  · rintro ⟨n, hn, hcount⟩
    rw [hcount, (tiles_responses h).unique hn]
  · intro hlen
    exact ⟨rs.length, tiles_responses h, hlen.symm⟩

/-- **The message count of a response PDU is right** exactly when the body of the request holds as
many complete commands as its header announced. -/
theorem countMatches_iff (d : Device K) (conn : ℕ) (msgCount : UInt16) (data : Ptr)
    (dataLen outCap : ℕ) (hcap : outCap < 2 ^ 32)
    (hpdu : (routeCommandPdu d conn .cmdRrq msgCount data dataLen outCap).2 ≠ []) :
    CountMatches (routeCommandPdu d conn .cmdRrq msgCount data dataLen outCap).2 ↔
      HoldsCommands msgCount.toNat (data.read dataLen) := by
  rw [routeCommandPdu_pdu] at hpdu ⊢
  split_ifs at hpdu ⊢ with hfit
  · have hlen := hfit.1
    rw [← List.flatMap_map] at hlen
    rw [countMatches_responsePdu (by omega), List.length_map, pduAnswers, length_answers,
      Reader.init, length_commands_eq_iff _ _ _ (Nat.zero_le _), Ptr.add_zero, Nat.sub_zero]
  · exact absurd rfl hpdu

/-- A request for the AES70 version, `GetOcaVersion` of the device manager. -/
def getOcaVersion : Command := ⟨7, 1, 3, 1, 0, []⟩

/-- A request for the label of the root block. -/
def getRootLabel : Command := ⟨8, 100, 2, 8, 0, []⟩

/-- Two commands, announced as two: the response PDU says there are two responses. -/
theorem countMatches_twoRequests : CountMatches (routeCommandPdu Sample.start 0 .cmdRrq 2
    (Ptr.ofBytes (getOcaVersion.encode ++ getRootLabel.encode) fun _ => 0) 34 2048).2 :=
  (countMatches_iff Sample.start 0 2
    (Ptr.ofBytes (getOcaVersion.encode ++ getRootLabel.encode) fun _ => 0) 34 2048
    (by decide) (by decide)).mpr (by decide)

/-- One command announced, none sent: the response PDU still says there is one response. -/
theorem not_countMatches_empty :
    (routeCommandPdu Sample.start 0 .cmdRrq 1 (fun _ => 0) 0 2048).2 ≠ [] ∧
      ¬CountMatches (routeCommandPdu Sample.start 0 .cmdRrq 1 (fun _ => 0) 0 2048).2 := by
  have hpdu : (routeCommandPdu Sample.start 0 .cmdRrq 1 (fun _ => 0) 0 2048).2 =
      responsePdu 1 [] := by decide
  rw [hpdu]
  refine ⟨by decide, fun h => ?_⟩
  have hlen := (countMatches_responsePdu (by decide)).mp h
  exact absurd hlen (by decide)

end Aes70
