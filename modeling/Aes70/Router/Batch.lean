import Aes70.Router.Message
import Aes70.Server.Machine

/-!
# Batches of commands

A controller may send its commands in one PDU or each in a PDU of its own. The device should do the
same in both cases, and every command should see its own parameters only.

* `reference` : the commands executed one after the other, each with a reader over exactly its own
  parameters.
* `Batched` : one PDU, many PDUs and the reference agree.
* `StrayRecall` : some command is an `ApplyParameterData` that looks beyond its parameters.
* `batched_iff` : a list of commands is batched correctly exactly when there is none.
-/

namespace Aes70

variable {K : Kconfig}

/-- The commands executed one after the other, with `room` bytes for each response. -/
def reference (room conn : ℕ) (cs : List Command) (d : Device K) : List (Answer K) × Device K :=
  answers room conn (cs.map fun c => (c, Reader.ofBytes c.params)) d

/-- Route the commands in one `CmdRrq` PDU; `mem` is the memory behind it. -/
def routeBatch (conn outCap : ℕ) (mem : Ptr) (cs : List Command) (d : Device K) :
    Device K × Bytes :=
  let body := cs.flatMap Command.encode
  routeCommandPdu d conn .cmdRrq (UInt16.ofNat cs.length) (Ptr.ofBytes body mem) body.length outCap

/-- Route each command in a PDU of its own. -/
def routeEach (conn outCap : ℕ) (mem : Ptr) : List Command → Device K → Device K × List Bytes
  | [], d => (d, [])
  | c :: cs, d =>
    let (d, pdu) := routeBatch conn outCap mem [c] d
    let (d, pdus) := routeEach conn outCap mem cs d
    (d, pdu :: pdus)

/-- The answers of the router to the commands of one PDU, with the readers it used. -/
def batchAnswers (conn outCap : ℕ) (mem : Ptr) (cs : List Command) (d : Device K) :
    List (Answer K) :=
  let body := cs.flatMap Command.encode
  (pduAnswers d conn (UInt16.ofNat cs.length) (Ptr.ofBytes body mem) body.length outCap).1

/-- One PDU, many PDUs and the reference execution of the commands agree. -/
structure Batched (conn outCap : ℕ) (mem : Ptr) (cs : List Command) (d : Device K) : Prop where
  /-- The PDU holds the responses of the reference, in order. -/
  pdu : (routeBatch conn outCap mem cs d).2 = responsePdu (UInt16.ofNat cs.length)
    ((reference outCap conn cs d).1.map Answer.response)
  /-- There is one for each command, with its handle. -/
  handles : (reference outCap conn cs d).1.map (fun a => a.response.handle) =
    cs.map Command.handle
  /-- Failed commands return no parameters. -/
  failed : ∀ a ∈ (reference outCap conn cs d).1, a.response.status ≠ .ok →
    a.response.paramCount = 0 ∧ a.response.params = []
  /-- The device is the one the reference leaves. -/
  dev : (routeBatch conn outCap mem cs d).1 =
    { (reference outCap conn cs d).2 with activeConn := none }
  /-- No command looked at more than its own parameters. -/
  own : List.Forall₂ (fun c a => a.rd.seen ≤ c.params.length) cs
    (batchAnswers conn outCap mem cs d)
  /-- The same PDU by PDU. -/
  eachPdu : (routeEach conn outCap mem cs d).2 =
    (reference outCap conn cs d).1.map fun a => responsePdu 1 [a.response]
  eachDev : { (routeEach conn outCap mem cs d).1 with activeConn := none } =
    (routeBatch conn outCap mem cs d).1

/-! ### Commands that look beyond their parameters -/

/-- Executing the command calls `ApplyParameterData` with parameters that make it read beyond
them. -/
def Command.Strays (conn : ℕ) (c : Command) (d : Device K) : Prop :=
  ∃ i, d.find c.target = some i ∧
    Recalls { d with activeConn := some conn } i c.level c.index ∧
      Overreads (Ptr.ofBytes c.params fun _ => 0) c.params.length

/-- Some command of the list does, in the state the ones before it leave. -/
def StrayRecall (conn : ℕ) : List Command → Device K → Prop
  | [], _ => False
  | c :: cs, d => c.Strays conn d ∨
    StrayRecall conn cs (answer 0 conn c (Reader.ofBytes c.params) d).dev

section One

variable (room : ℕ) {conn : ℕ} {c : Command} {q : Command × Reader} {d : Device K}

theorem Ptr.eq_of_read {p p' : Ptr} {n : ℕ} (h : p.read n = p'.read n) : ∀ k < n, p k = p' k := by
  intro k hk
  have hget := congrArg (fun l : Bytes => l[k]?) h
  simpa [read, hk] using hget

theorem overreads_congr {p p' : Ptr} {len : ℕ} (h : ∀ k < len, p k = p' k) :
    Overreads p len ↔ Overreads p' len := by
  unfold Overreads
  by_cases h4 : 4 ≤ len
  · by_cases h6 : 6 ≤ len
    · have hcount : blobCount p = blobCount p' := by
        rw [blobCount, blobCount, Ptr.read_congr (Ptr.agree_add h (show 4 + 2 ≤ len by omega)) le_rfl]
      rw [blobLength_congr h h4, hcount]
    · rw [blobLength_congr h h4]
      simp only [Nat.lt_of_not_le h6, true_or]
  · simp only [h4, false_and]

/-- **A command that does not stray** is executed as by the reference, whatever follows its
parameters. -/
theorem answer_own (hq : Carries c q) (hno : ¬c.Strays conn d) :
    let a := answer room conn q.1 q.2 d
    let a' := answer room conn c (Reader.ofBytes c.params) d
    a.response = a'.response ∧ a.overflow = a'.overflow ∧ a.dev = a'.dev ∧
      a.rd.seen ≤ c.params.length := by
  obtain ⟨rfl, p, hp, hread⟩ := hq
  have hagree : ∀ k < q.1.params.length, p k = Ptr.ofBytes q.1.params (fun _ => 0) k :=
    Ptr.eq_of_read (hread.trans (Ptr.read_ofBytes _ _).symm)
  have hsame : (Reader.init p q.1.params.length).Same (Reader.ofBytes q.1.params) :=
    ⟨rfl, rfl, rfl, rfl, hagree, Reader.inside_init _ _⟩
  obtain ⟨e, r, r', ⟨hr, hlen⟩, -, heq⟩ := execCommand_uniformAt
    (readRel_same.and_len q.1.params.length) (d := { d with activeConn := some conn })
    ⟨hsame, rfl⟩ (fun i hf hrec => by
      have hown : ¬Overreads p q.1.params.length := fun h =>
        hno ⟨i, hf, hrec, (overreads_congr hagree).mp h⟩
      obtain ⟨hps, hrest⟩ := recall_same hagree hown
      exact applyParameterData_uniformAt hps ⟨hrest, len_recallRest _ _⟩) 0
  rw [hp, answer_of_exec room fun wr => (heq wr).1, answer_of_exec room fun wr => (heq wr).2]
  exact ⟨rfl, rfl, rfl, hlen ▸ hr.inside.seen_le⟩

/-- A command that strays is seen to. -/
theorem lt_seen_of_strays (hq : Carries c q) (h : c.Strays conn d) :
    c.params.length < (answer room conn q.1 q.2 d).rd.seen := by
  obtain ⟨rfl, p, hp, hread⟩ := hq
  obtain ⟨i, hf, hrec, hover⟩ := h
  have hagree : ∀ k < q.1.params.length, p k = Ptr.ofBytes q.1.params (fun _ => 0) k :=
    Ptr.eq_of_read (hread.trans (Ptr.read_ofBytes _ _).symm)
  have hrd : (answer room conn q.1 q.2 d).rd = recallRest q.2 := by
    let call : Call K := ⟨{ d with activeConn := some conn }, q.2, Writer.init room, 0⟩
    have hf' : call.dev.find q.1.target = some i := hf
    change (execCommand conn q.1 call).2.rd = _
    rw [execCommand_of_find hf', objectDispatch_of_recalls hrec (c := call) rfl,
      applyParameterData_eq]
  rw [hrd, hp]
  exact lt_seen_of_overreads ((overreads_congr hagree).mpr hover)

end One

/-! ### Lists of commands -/

section Lists

variable (room : ℕ) {conn : ℕ} {cs : List Command} {qs : List (Command × Reader)} {d : Device K}

theorem answer_dev (room' conn : ℕ) (c : Command) (rd : Reader) (d : Device K) :
    (answer room conn c rd d).dev = (answer room' conn c rd d).dev :=
  answers_dev room room' conn [(c, rd)] d

/-- Two lists of answers that agree but for the readers. -/
structure SameAnswers (as as' : List (Answer K)) : Prop where
  response : as.map Answer.response = as'.map Answer.response
  overflow : as.map Answer.overflow = as'.map Answer.overflow

theorem SameAnswers.fits_iff {as as' : List (Answer K)} (h : SameAnswers as as') (cap : ℕ) :
    Fits cap as ↔ Fits cap as' := by
  have hover (as : List (Answer K)) :
      (∀ a ∈ as, a.overflow = false) ↔ ∀ b ∈ as.map Answer.overflow, b = false := by simp
  have hsize (as : List (Answer K)) : (as.flatMap fun a => a.response.encode) =
      (as.map Answer.response).flatMap Response.encode := by rw [List.flatMap_map]
  unfold Fits
  rw [hover, hover, hsize, hsize, h.response, h.overflow]

/-- Commands none of which strays are executed as by the reference. -/
theorem answers_own (h : List.Forall₂ Carries cs qs) (hno : ¬StrayRecall conn cs d) :
    (answers room conn qs d).2 = (reference room conn cs d).2 ∧
      SameAnswers (answers room conn qs d).1 (reference room conn cs d).1 ∧
        List.Forall₂ (fun c a => a.rd.seen ≤ c.params.length) cs (answers room conn qs d).1 := by
  induction h generalizing d with
  | nil => exact ⟨rfl, ⟨rfl, rfl⟩, .nil⟩
  | @cons c q cs qs hq _ ih =>
    rw [StrayRecall, not_or] at hno
    obtain ⟨hresp, hover, hdev, hseen⟩ := answer_own room hq hno.1
    rw [answer_dev 0 room, ← hdev] at hno
    obtain ⟨hdevs, hsame, hown⟩ := ih hno.2
    rw [reference, List.map_cons, answers, answers]
    dsimp only
    rw [← hdev]
    exact ⟨hdevs, ⟨congrArg₂ List.cons hresp hsame.response, congrArg₂ List.cons hover hsame.overflow⟩,
      .cons hseen hown⟩

/-- If one strays, some command looks at more than its parameters. -/
theorem not_own_of_strayRecall (h : List.Forall₂ Carries cs qs) (hs : StrayRecall conn cs d) :
    ¬List.Forall₂ (fun c a => a.rd.seen ≤ c.params.length) cs (answers room conn qs d).1 := by
  induction h generalizing d with
  | nil => exact hs.elim
  | @cons c q cs qs hq _ ih =>
    intro hown
    obtain ⟨hseen, hown⟩ := List.forall₂_cons.mp hown
    by_cases hc : c.Strays conn d
    · exact absurd (lt_seen_of_strays room hq hc) (Nat.not_lt.mpr hseen)
    · have hdev := (answer_own room hq hc).2.2.1
      have hs' := hs.resolve_left hc
      rw [answer_dev 0 room, ← hdev] at hs'
      exact ih hs' hown

/-- The connection a device is left with does not matter to the next commands. -/
theorem reference_activeConn (conn : ℕ) (cs : List Command) (d : Device K) (x : Option ℕ) :
    (reference room conn cs { d with activeConn := x }).1 = (reference room conn cs d).1 ∧
      ({ (reference room conn cs { d with activeConn := x }).2 with activeConn := none } :
        Device K) = { (reference room conn cs d).2 with activeConn := none } := by
  cases cs with
  | nil => exact ⟨rfl, rfl⟩
  | cons c cs => exact ⟨rfl, rfl⟩

theorem strayRecall_activeConn (conn : ℕ) (cs : List Command) (d : Device K) (x : Option ℕ) :
    StrayRecall conn cs { d with activeConn := x } ↔ StrayRecall conn cs d := by
  cases cs with
  | nil => exact Iff.rfl
  | cons c cs => exact Iff.rfl

theorem map_handle_reference (conn : ℕ) (cs : List Command) (d : Device K) :
    (reference room conn cs d).1.map (fun a => a.response.handle) = cs.map Command.handle := by
  induction cs generalizing d with
  | nil => rfl
  | cons c cs ih => exact congrArg (c.handle :: ·) (ih _)

/-- Failed commands return no parameters. -/
theorem reference_failed (conn : ℕ) (cs : List Command) (d : Device K) :
    ∀ a ∈ (reference room conn cs d).1, a.response.status ≠ .ok →
      a.response.paramCount = 0 ∧ a.response.params = [] := by
  induction cs generalizing d with
  | nil => exact fun a ha => absurd ha List.not_mem_nil
  | cons c cs ih =>
    intro a ha hst
    obtain rfl | ha := List.mem_cons.mp ha
    · exact ⟨if_neg hst, if_neg hst⟩
    · exact ih _ a ha hst

end Lists

/-! ### PDUs -/

section Pdus

variable (outCap : ℕ) {conn : ℕ} {cs : List Command} {d : Device K}

/-- What the loop finds in the body made of these commands. -/
theorem carries_batch (mem : Ptr) (hlen : cs.length ≤ 65535) (henc : ∀ c ∈ cs, c.Encodable) :
    List.Forall₂ Carries cs (commands (UInt16.ofNat cs.length).toNat
      (Reader.init (Ptr.ofBytes (cs.flatMap Command.encode) mem)
        (cs.flatMap Command.encode).length)) := by
  rw [UInt16.toNat_ofNat_of_lt' (show cs.length < 2 ^ 16 by omega)]
  have hbs : cs.flatMap Command.encode = [] ++ (cs.flatMap Command.encode ++ []) := by simp
  exact commands_encode mem henc hbs 0

/-- Routing commands none of which strays in one PDU leaves the device of the reference. -/
theorem routeBatch_dev (mem : Ptr) (hlen : cs.length ≤ 65535) (henc : ∀ c ∈ cs, c.Encodable)
    (hno : ¬StrayRecall conn cs d) : (routeBatch conn outCap mem cs d).1 =
      { (reference outCap conn cs d).2 with activeConn := none } := by
  obtain ⟨hdev, -, -⟩ := answers_own outCap (carries_batch mem hlen henc) hno
  rw [← hdev]
  exact routeCommandPdu_dev d conn _ _ _ _ outCap outCap

/-- The responses are those of the reference, if they fit. -/
theorem routeBatch_pdu (mem : Ptr) (hlen : cs.length ≤ 65535) (henc : ∀ c ∈ cs, c.Encodable)
    (hno : ¬StrayRecall conn cs d) : (routeBatch conn outCap mem cs d).2 =
      if Fits outCap (reference outCap conn cs d).1 then
        responsePdu (UInt16.ofNat cs.length) ((reference outCap conn cs d).1.map Answer.response)
      else [] := by
  obtain ⟨-, hsame, -⟩ := answers_own outCap (carries_batch mem hlen henc) hno
  rw [← hsame.response]
  exact (routeCommandPdu_pdu d conn _ _ _ outCap).trans
    (if_congr (hsame.fits_iff outCap) rfl rfl)

/-- Routing each of them in a PDU of its own. -/
theorem routeEach_eq (mem : Ptr) (henc : ∀ c ∈ cs, c.Encodable) (hno : ¬StrayRecall conn cs d)
    (hfit : ∀ a ∈ (reference outCap conn cs d).1, Fits outCap [a]) :
    (routeEach conn outCap mem cs d).2 =
        (reference outCap conn cs d).1.map (fun a => responsePdu 1 [a.response]) ∧
      ({ (routeEach conn outCap mem cs d).1 with activeConn := none } : Device K) =
        { (reference outCap conn cs d).2 with activeConn := none } := by
  induction cs generalizing d with
  | nil => exact ⟨rfl, rfl⟩
  | cons c cs ih =>
    obtain ⟨hc, henc⟩ := List.forall_mem_cons.mp henc
    rw [StrayRecall, not_or, answer_dev 0 outCap] at hno
    let a := answer outCap conn c (Reader.ofBytes c.params) d
    let d₁ : Device K := { a.dev with activeConn := none }
    have hone : routeBatch conn outCap mem [c] d = (d₁, responsePdu 1 [a.response]) :=
      have hc : ∀ c' ∈ [c], c'.Encodable := by simpa using hc
      have hno : ¬StrayRecall conn [c] d := fun h => h.elim hno.1 False.elim
      Prod.ext (routeBatch_dev outCap mem (by simp) hc hno)
        ((routeBatch_pdu outCap mem (by simp) hc hno).trans (if_pos (hfit a List.mem_cons_self)))
    obtain ⟨has, hdev⟩ := reference_activeConn outCap conn cs a.dev none
    obtain ⟨hpdus, hdevs⟩ := ih (d := d₁) henc
      (fun h => hno.2 ((strayRecall_activeConn conn cs a.dev none).mp h))
      (fun a' ha' => hfit a' (List.mem_cons_of_mem _ (has ▸ ha')))
    rw [routeEach, hone]
    dsimp only
    rw [hpdus, hdevs, has, hdev]
    exact ⟨rfl, rfl⟩

/-- **Commands are batched correctly** exactly when none of them makes `ApplyParameterData` look
beyond its parameters. -/
theorem batched_iff {outCap : ℕ} (mem : Ptr) (hlen : cs.length ≤ 65535) (henc : ∀ c ∈ cs, c.Encodable)
    (hpdu : (routeBatch conn outCap mem cs d).2 ≠ []) :
    Batched conn outCap mem cs d ↔ ¬StrayRecall conn cs d := by
  have hqs := carries_batch mem hlen henc
  constructor
  · intro h hs
    exact not_own_of_strayRecall outCap hqs hs h.own
  · intro hno
    obtain ⟨-, -, hown⟩ := answers_own outCap hqs hno
    have hbatch := routeBatch_pdu outCap mem hlen henc hno
    have hfit : Fits outCap (reference outCap conn cs d).1 := by
      by_contra hnot
      exact hpdu (hbatch.trans (if_neg hnot))
    have hone : ∀ a ∈ (reference outCap conn cs d).1, Fits outCap [a] := by
      intro a ha
      refine ⟨?_, by simpa using hfit.2 a ha⟩
      obtain ⟨l, l', hl⟩ := List.append_of_mem ha
      have hsize := hfit.1
      rw [hl, List.flatMap_append, List.flatMap_cons, List.length_append, List.length_append] at hsize
      simp only [List.flatMap_cons, List.flatMap_nil, List.append_nil]
      omega
    have hdev := routeBatch_dev outCap mem hlen henc hno
    obtain ⟨heach, heachDev⟩ := routeEach_eq outCap mem henc hno hone
    exact {
      pdu := hbatch.trans (if_pos hfit)
      handles := map_handle_reference _ _ _ _
      failed := reference_failed _ _ _ _
      dev := hdev
      own := hown
      eachPdu := heach
      eachDev := heachDev.trans hdev.symm }

end Pdus

/-- Commands with another method index than that of `ApplyParameterData` do not stray. -/
theorem not_strayRecall_of_index {conn : ℕ} {cs : List Command} (h : ∀ c ∈ cs, c.index ≠ 26)
    (d : Device K) : ¬StrayRecall conn cs d := by
  induction cs generalizing d with
  | nil => exact id
  | cons c cs ih =>
    obtain ⟨hc, hcs⟩ := List.forall_mem_cons.mp h
    rintro (⟨i, -, ⟨-, -, hidx, -⟩, -⟩ | hs)
    · exact hc hidx
    · exact ih hcs _ hs

namespace Sample

/-- The sample device with a mute, object 3 with the number 4096, not muted. -/
def mute : Device .default := after [.create (.mute false) none (ascii "mute")]

theorem reach_mute : (server .default).Reach mute := reach_after (.cons ok_create (.nil _))

/-- Ask for the version, then mute. -/
def versionAndMute : List Command := [⟨1, 1, 3, 1, 0, []⟩, ⟨2, 4096, 4, 2, 1, [1]⟩]

/-- These two may be sent in one PDU or in two. -/
theorem batched_versionAndMute : Batched 0 2048 (fun _ => 0) versionAndMute mute :=
  (batched_iff (fun _ => 0) (by decide) (by decide) (by decide)).mpr
    (not_strayRecall_of_index (by decide) mute)

/-- A recall of two entries, of which the blob holds none, and a command whose bytes read as an
entry that mutes. The length announced for the blob is `2 ^ 32 - 1`. -/
def strayPair : List Command :=
  [⟨1, 100, 3, 26, 2, [0xFF, 0xFF, 0xFF, 0xFF, 0, 2]⟩,
    ⟨2, 9, 0, 4096, 0x3F, [0xF0, 0, 0, 0, 0, 0, 0, 0]⟩]

/-- Sent in one PDU these mute, sent in two they do not. -/
theorem not_batched_strayPair :
    (routeBatch 0 2048 (fun _ => 0) strayPair mute).2 ≠ [] ∧
      ((routeBatch 0 2048 (fun _ => 0) strayPair mute).1.obj 3).num = .ofNat 1 ∧
        ((routeEach 0 2048 (fun _ => 0) strayPair mute).1.obj 3).num = .ofNat 2 ∧
          ¬Batched 0 2048 (fun _ => 0) strayPair mute := by
  have hone : ((routeBatch 0 2048 (fun _ => 0) strayPair mute).1.obj 3).num = .ofNat 1 := by decide
  have heach : ((routeEach 0 2048 (fun _ => 0) strayPair mute).1.obj 3).num = .ofNat 2 := by decide
  refine ⟨by decide, hone, heach, fun h => ?_⟩
  have hdev : ((routeEach 0 2048 (fun _ => 0) strayPair mute).1.obj 3).num =
      ((routeBatch 0 2048 (fun _ => 0) strayPair mute).1.obj 3).num :=
    congrArg (fun d : Device .default => (d.obj 3).num) h.eachDev
  rw [hone, heach] at hdev
  exact absurd hdev (by decide)

end Sample

end Aes70
