import Aes70.Router.Batch

/-!
# The bytes that are read

The router reads a body it is given the length of, and every handler reads parameters it is given
the length of. Neither looks any further, but for one call: an `ApplyParameterData` whose blob has
a length that wraps.

* `bodySeen` : how far the loop looks into the body.
* `routeReads` : the commands the loop executes, each with the reader its handler leaves.
* `readsInside_iff` : nothing is read beyond its area exactly if no recall strays.
-/

namespace Aes70

variable {K : Kconfig}

/-! ### The reads of the router -/

/-- The reader after the head of the loop, whether a command was found or not. -/
def headReads (rd : Reader) : Reader :=
  let (size, rd) := Read.u32 rd
  if rd.err || decide (size.toNat < 17) || decide (rd.len - rd.off < size.toNat - 4) then rd else
    (Read.u8 (Read.u16 (Read.u16 (Read.u32 (Read.u32 rd).2).2).2).2).2

/-- One past the highest byte of the body that `n` turns of the loop read. -/
def bodySeen : ℕ → Reader → ℕ
  | 0, rd => rd.seen
  | n + 1, rd =>
    match nextCommand rd with
    | none => (headReads rd).seen
    | some q => bodySeen n q.rest

/-- The commands `n` turns of the loop execute, each with the reader that its handler leaves. -/
def routeReads (conn : ℕ) (wantResp : Bool) : ℕ → Router K → List (Command × Reader)
  | 0, _ => []
  | n + 1, s =>
    match nextCommand s.rd with
    | none => []
    | some p =>
      let d := { s.dev with activeConn := some conn }
      let rd :=
        if wantResp then (appendResponse conn p.cmd p.params d s.resp).2.1
        else (execCommand conn p.cmd ⟨d, p.params, Writer.init 64, 0⟩).2.rd
      (p.cmd, rd) :: routeReads conn wantResp n (routeCommand conn wantResp p s)

/-- The reads made while a body is routed stay inside the body, and those of each handler inside the
parameters of its command. -/
structure ReadsInside (d : Device K) (conn : ℕ) (type : MsgType) (msgCount : UInt16) (data : Ptr)
    (dataLen outCap : ℕ) : Prop where
  body : bodySeen msgCount.toNat (Reader.init data dataLen) ≤ dataLen
  params :
    let wantResp := decide (type = .cmdRrq)
    let resp := Writer.init outCap
    let resp := if wantResp then resp.fields (responseHeader msgCount) else resp
    ∀ q ∈ routeReads conn wantResp msgCount.toNat ⟨d, Reader.init data dataLen, resp⟩,
      q.2.seen ≤ q.1.params.length

/-! ### The body -/

section Body

variable {rd : Reader} {q : Parsed}

theorem Reader.Inside.same (h : rd.Inside) : rd.Same rd := ⟨rfl, rfl, rfl, rfl, fun _ _ => rfl, h⟩

theorem Reader.Inside.fixed {α : Type} (h : rd.Inside) (n : ℕ) (zero : α) (f : Bytes → α) :
    (Read.fixed n zero f rd).2.Inside := (h.same.fixed n zero f).2.inside

theorem inside_headReads (h : rd.Inside) : (headReads rd).Inside := by
  have hsize : (Read.u32 rd).2.Inside := h.fixed 4 0 rd32
  unfold headReads
  dsimp only
  split_ifs
  · exact hsize
  · have hhandle : (Read.u32 (Read.u32 rd).2).2.Inside := hsize.fixed 4 0 rd32
    have htarget : (Read.u32 (Read.u32 (Read.u32 rd).2).2).2.Inside := hhandle.fixed 4 0 rd32
    exact ((htarget.fixed 2 0 rd16).fixed 2 0 rd16).fixed 1 0 _

theorem len_headReads (rd : Reader) : (headReads rd).len = rd.len := by
  unfold headReads
  dsimp only
  split_ifs
  · exact Read.len_fixed 4 (0 : UInt32) _ _
  · simp only [Read.u8, Read.u16, Read.u32, Read.len_fixed]

/-- The loop goes on with the reader of the head, moved to the next command. -/
theorem nextCommand_rest (h : nextCommand rd = some q) :
    ∃ next, q.rest = { headReads rd with off := min next rd.len } := by
  unfold nextCommand at h
  unfold headReads
  dsimp only at h ⊢
  split_ifs at h with hbad herr
  rw [if_neg hbad]
  obtain rfl := Option.some.inj h
  have hlen : (Read.u8 (Read.u16 (Read.u16 (Read.u32 (Read.u32 (Read.u32 rd).2).2).2).2).2).2.len =
      rd.len := by simp only [Read.u8, Read.u16, Read.u32, Read.len_fixed]
  rw [← hlen]
  exact ⟨_, rfl⟩

/-- **The loop reads the body only.** -/
theorem bodySeen_le (n : ℕ) (h : rd.Inside) : bodySeen n rd ≤ rd.len := by
  induction n generalizing rd with
  | zero => exact h.seen_le
  | succ n ih =>
    have hhead := inside_headReads h
    unfold bodySeen
    split
    · exact hhead.seen_le.trans (len_headReads rd).le
    · next q hq =>
      obtain ⟨next, hrest⟩ := nextCommand_rest hq
      have hlen : q.rest.len = rd.len := by rw [hrest]; exact len_headReads rd
      rw [← hlen]
      refine ih ⟨?_, ?_⟩
      · rw [hlen, hrest]
        exact min_le_right _ _
      · rw [hrest]
        exact hhead.seen_le

end Body

/-! ### The parameters -/

/-- The commands the loop finds come with readers over their parameters. -/
theorem carries_commands (n : ℕ) (rd : Reader) :
    List.Forall₂ Carries ((commands n rd).map Prod.fst) (commands n rd) := by
  induction n generalizing rd with
  | zero => exact .nil
  | succ n ih =>
    unfold commands
    split
    · exact .nil
    · next q hq =>
      obtain ⟨p, m, hreader, hparams⟩ := params_of_nextCommand hq
      have hlen : q.cmd.params.length = m := by rw [hparams, Ptr.length_read]
      exact .cons ⟨rfl, p, by rw [hlen]; exact hreader, by rw [hlen]; exact hparams.symm⟩ (ih q.rest)

/-- A turn of the loop reads and does what executing its command does. -/
theorem routeCommand_reads (conn : ℕ) (wantResp : Bool) (room : ℕ) (p : Parsed) (s : Router K) :
    (if wantResp then
        (appendResponse conn p.cmd p.params { s.dev with activeConn := some conn } s.resp).2.1
      else (execCommand conn p.cmd
        ⟨{ s.dev with activeConn := some conn }, p.params, Writer.init 64, 0⟩).2.rd) =
        (answer room conn p.cmd p.params s.dev).rd ∧
      (routeCommand conn wantResp p s).dev = (answer room conn p.cmd p.params s.dev).dev ∧
        (routeCommand conn wantResp p s).rd = p.rest := by
  obtain ⟨e, r, -, hx⟩ := execCommand_blind conn p.cmd { s.dev with activeConn := some conn }
    p.params
  rw [answer_of_exec room hx]
  unfold routeCommand
  cases wantResp
  · simp only [Bool.false_eq_true, if_false, hx]
    exact ⟨rfl, rfl, trivial⟩
  · simp only [if_true, appendResponse_of_exec s.resp hx]
    exact ⟨rfl, rfl, trivial⟩

/-- The handlers of the loop read what executing the commands one after the other reads. -/
theorem routeReads_forall_iff (conn : ℕ) (wantResp : Bool) (room n : ℕ) (s : Router K) :
    (∀ q ∈ routeReads conn wantResp n s, q.2.seen ≤ q.1.params.length) ↔
      List.Forall₂ (fun (c : Command) a => a.rd.seen ≤ c.params.length)
        ((commands n s.rd).map Prod.fst) (answers room conn (commands n s.rd) s.dev).1 := by
  induction n generalizing s with
  | zero => exact iff_of_true (fun _ h => absurd h List.not_mem_nil) .nil
  | succ n ih =>
    unfold routeReads commands
    cases hp : nextCommand s.rd with
    | none => exact iff_of_true (fun _ h => absurd h List.not_mem_nil) .nil
    | some p =>
      obtain ⟨hreads, hdev, hrest⟩ := routeCommand_reads conn wantResp room p s
      dsimp only
      rw [hreads, List.forall_mem_cons, ih, hrest, hdev, List.map_cons, answers,
        List.forall₂_cons]

/-- **Everything that is read lies in its area**, exactly if no command is a recall that strays. -/
theorem readsInside_iff (d : Device K) (conn : ℕ) (type : MsgType) (msgCount : UInt16) (data : Ptr)
    (dataLen outCap : ℕ) : ReadsInside d conn type msgCount data dataLen outCap ↔
      ¬StrayRecall conn ((commands msgCount.toNat (Reader.init data dataLen)).map Prod.fst) d := by
  have hcarries := carries_commands msgCount.toNat (Reader.init data dataLen)
  constructor
  · intro h hs
    exact not_own_of_strayRecall 0 hcarries hs ((routeReads_forall_iff conn _ 0 _ _).1 h.params)
  · intro hno
    exact ⟨bodySeen_le _ (Reader.inside_init data dataLen),
      (routeReads_forall_iff conn _ 0 _ _).2 (answers_own 0 hcarries hno).2.2⟩

namespace Sample

/-- Two commands in one PDU, of which the first makes a recall that strays. -/
def strayBody : Bytes := strayPair.flatMap Command.encode

/-- The recall reads bytes of the command behind it. -/
theorem not_readsInside_strayBody : (server .default).Reach mute ∧
    ¬ReadsInside mute 0 .cmdRrq 2 (Ptr.ofBytes strayBody fun _ => 0) strayBody.length 2048 := by
  refine ⟨reach_mute, fun h => (readsInside_iff _ _ _ _ _ _ _).1 h ?_⟩
  have hfound : (commands (2 : UInt16).toNat (Reader.init (Ptr.ofBytes strayBody fun _ => 0)
      strayBody.length)).map Prod.fst = strayPair := by decide
  rw [hfound]
  exact .inl ⟨2, by decide, ⟨by decide, rfl, rfl, by decide⟩, by decide⟩

end Sample

end Aes70
