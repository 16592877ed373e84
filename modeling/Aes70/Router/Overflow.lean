import Aes70.Router.Batch

/-!
# Responses that do not fit

The responses to the commands of a PDU share one buffer. When they do not fit, the router drops them
all and reports an overflow; the commands have been executed by then.

* `Responds` : a PDU holds a response with a given handle.
* `responds_iff` : every command executed is answered exactly when all responses fit.
* `Sample.silent_overflow` : a lock that is taken without an answer.
-/

namespace Aes70

variable {K : Kconfig}

/-- The bytes are a Response PDU that holds a response with this handle. -/
def Responds (pdu : Bytes) (handle : UInt32) : Prop :=
  ∃ n rs, pdu = responsePdu n rs ∧ ∃ r ∈ rs, r.handle = handle

theorem responsePdu_ne_nil (n : UInt16) (rs : List Response) : responsePdu n rs ≠ [] := by
  simp [responsePdu]

theorem not_responds_nil (handle : UInt32) : ¬Responds [] handle := by
  rintro ⟨n, rs, h, -⟩
  exact responsePdu_ne_nil n rs h.symm

theorem map_handle_answers (room conn : ℕ) (qs : List (Command × Reader)) (d : Device K) :
    (answers room conn qs d).1.map (fun a => a.response.handle) = qs.map fun q => q.1.handle := by
  induction qs generalizing d with
  | nil => rfl
  | cons q qs ih => exact congrArg (q.1.handle :: ·) (ih _)

/-- Every command executed is answered exactly when none was executed or all responses fit. -/
theorem responds_iff_fits (d : Device K) (conn : ℕ) (msgCount : UInt16) (data : Ptr)
    (dataLen : ℕ) :
    (∀ q ∈ commands msgCount.toNat (Reader.init data dataLen),
      Responds (routeCommandPdu d conn .cmdRrq msgCount data dataLen K.txBufferSize).2 q.1.handle) ↔
        commands msgCount.toNat (Reader.init data dataLen) = [] ∨
          Fits K.txBufferSize (pduAnswers d conn msgCount data dataLen K.txBufferSize).1 := by
  rw [routeCommandPdu_pdu]
  by_cases hfit : Fits K.txBufferSize (pduAnswers d conn msgCount data dataLen K.txBufferSize).1
  · rw [if_pos hfit]
    refine iff_of_true (fun q hq => ⟨_, _, rfl, ?_⟩) (Or.inr hfit)
    have hmem : q.1.handle ∈ (pduAnswers d conn msgCount data dataLen K.txBufferSize).1.map
        fun a => a.response.handle := by
      rw [pduAnswers, map_handle_answers]
      exact List.mem_map_of_mem hq
    obtain ⟨a, ha, hhandle⟩ := List.mem_map.mp hmem
    exact ⟨a.response, List.mem_map_of_mem ha, hhandle⟩
  · rw [if_neg hfit, or_iff_left hfit]
    constructor
    · intro h
      by_contra hne
      obtain ⟨q, hq⟩ := List.exists_mem_of_ne_nil _ hne
      exact not_responds_nil _ (h q hq)
    · intro h q hq
      rw [h] at hq
      exact absurd hq List.not_mem_nil

/-- **Every command executed is answered** exactly when none was executed or all responses fit the
transmit buffer. The commands are executed one after the other in either case; if the responses do
not fit, there is no response. -/
theorem responds_iff (d : Device K) (conn : ℕ) (msgCount : UInt16) (data : Ptr) (dataLen : ℕ) :
    ((∀ q ∈ commands msgCount.toNat (Reader.init data dataLen),
      Responds (routeCommandPdu d conn .cmdRrq msgCount data dataLen K.txBufferSize).2 q.1.handle) ↔
        commands msgCount.toNat (Reader.init data dataLen) = [] ∨
          Fits K.txBufferSize (pduAnswers d conn msgCount data dataLen K.txBufferSize).1) ∧
      (¬Fits K.txBufferSize (pduAnswers d conn msgCount data dataLen K.txBufferSize).1 →
        (routeCommandPdu d conn .cmdRrq msgCount data dataLen K.txBufferSize).2 = []) ∧
      (routeCommandPdu d conn .cmdRrq msgCount data dataLen K.txBufferSize).1 =
        { (answers K.txBufferSize conn (commands msgCount.toNat (Reader.init data dataLen)) d).2 with
          activeConn := none } := by
  refine ⟨responds_iff_fits d conn msgCount data dataLen, fun hover => ?_, ?_⟩
  · rw [routeCommandPdu_pdu, if_neg hover]
  · exact routeCommandPdu_dev d conn .cmdRrq msgCount data dataLen K.txBufferSize K.txBufferSize

/-! ### A batch that overflows -/

/-- The result fields of `GetManagers`. -/
def managersFields (d : Device K) : List Field :=
  let ms := d.deviceManager.toList ++ d.subscriptionManager.toList
  .u16 (UInt16.ofNat ms.length) :: ms.flatMap fun m => managerDescriptor (d.obj m)

/-- `GetManagers` changes nothing. -/
theorem execCommand_getManagers {d : Device K} {i : ObjRef} {conn : ℕ} {c : Command}
    (hf : d.find c.target = some i) (hk : (d.obj i).kind = .deviceManager) (hl : c.level = 3)
    (hi : c.index = 19) (rd : Reader) (wr : Writer) :
    execCommand conn c ⟨d, rd, wr, 0⟩ =
      (⟨.ok, d.emit (.command conn c .ok), managersFields d, 1⟩ : Effect K).on rd wr := by
  have hh : handlerFor (K := K) (d.obj i).kind 3 = some devmgrDispatch := by rw [hk]; rfl
  have hg : d.gate i 3 19 = none := by
    have hw : methodIsWrite .deviceManager 3 19 = false := rfl
    unfold Device.gate
    simp only [hk, hw, Bool.and_false, Bool.false_eq_true, if_false]
  rw [execCommand_of_find (c := ⟨d, rd, wr, 0⟩) hf, hl, hi,
    objectDispatch_of_handler hh hg (c := ⟨d, rd, wr, 0⟩) rfl]
  rfl

/-- Any number of them leaves the objects as they are, and their responses are all of one size. -/
theorem reference_getManagers {d : Device K} {i : ObjRef} {c : Command} (room conn n : ℕ)
    (hf : d.find c.target = some i) (hk : (d.obj i).kind = .deviceManager) (hl : c.level = 3)
    (hi : c.index = 19) :
    (reference room conn (List.replicate n c) d).2.objects = d.objects ∧
      ((∀ a ∈ (reference room conn (List.replicate n c) d).1, a.overflow = false) →
        ((reference room conn (List.replicate n c) d).1.flatMap fun a => a.response.encode).length =
          n * (10 + (Field.encodeAll (managersFields d)).length)) := by
  induction n generalizing d with
  | zero => exact ⟨rfl, fun _ => (Nat.zero_mul _).symm⟩
  | succ n ih =>
    let d' : Device K := { d with activeConn := some conn }
    let e : Effect K := ⟨.ok, d'.emit (.command conn c .ok), managersFields d, 1⟩
    have ha : answer room conn c (Reader.ofBytes c.params) d =
        e.answer room c.handle (Reader.ofBytes c.params) :=
      answer_of_exec room (execCommand_getManagers (d := d') hf hk hl hi _)
    obtain ⟨hobjects, hsize⟩ := ih (d := e.dev) hf hk
    have href : reference room conn (List.replicate (n + 1) c) d =
        (e.answer room c.handle (Reader.ofBytes c.params) ::
          (reference room conn (List.replicate n c) e.dev).1,
            (reference room conn (List.replicate n c) e.dev).2) := by
      rw [reference, List.replicate_succ, List.map_cons, answers, ha]
      rfl
    rw [href]
    refine ⟨hobjects, fun h => ?_⟩
    obtain ⟨hover, h⟩ := List.forall_mem_cons.mp h
    rw [List.flatMap_cons, List.length_append, Response.length_encode, hsize h,
      Effect.answer_params (fun h => absurd rfl h) c.handle _ hover]
    have hsame : managersFields e.dev = managersFields d := rfl
    rw [hsame, Nat.succ_mul, Nat.add_comm]

namespace Sample

/-- Lock the root block, then ask for the managers 25 times. -/
def lockAndList : List Command :=
  ⟨1, 100, 1, 6, 0, []⟩ :: List.replicate 25 ⟨2, 1, 3, 19, 0, []⟩

/-- The sample device, locked by connection 0. -/
def locked : Device .default :=
  (answer 2048 0 ⟨1, 100, 1, 6, 0, []⟩ (Reader.ofBytes []) start).dev

theorem not_fits_lockAndList : ¬Fits 2048 (reference 2048 0 lockAndList start).1 := by
  rintro ⟨hle, hover⟩
  have hsize := (reference_getManagers (d := locked) (i := 0) (c := ⟨2, 1, 3, 19, 0, []⟩) 2048 0 25
    (by decide) (by decide) rfl rfl).2 fun a ha => hover a (List.mem_cons_of_mem _ ha)
  have hlen : (Field.encodeAll (managersFields locked)).length = 72 := by decide
  rw [hlen] at hsize
  have hall : (reference 2048 0 lockAndList start).1 =
      answer 2048 0 ⟨1, 100, 1, 6, 0, []⟩ (Reader.ofBytes []) start ::
        (reference 2048 0 (List.replicate 25 ⟨2, 1, 3, 19, 0, []⟩) locked).1 := rfl
  rw [hall, List.flatMap_cons, List.length_append, hsize, Response.length_encode] at hle
  omega

/-- With the default buffers the root block ends up locked, and nothing is sent. -/
theorem silent_overflow : (server .default).Reach start ∧ (start.obj 2).lockState = .none ∧
    ((routeBatch 0 2048 (fun _ => 0) lockAndList start).1.obj 2).lockState = .noWrite ∧
      (routeBatch 0 2048 (fun _ => 0) lockAndList start).2 = [] := by
  have hno : ¬StrayRecall 0 lockAndList start := not_strayRecall_of_index (by decide) start
  have hdev := routeBatch_dev 2048 (fun _ => 0) (by decide) (by decide) hno
  have hpdu := routeBatch_pdu 2048 (fun _ => 0) (by decide) (by decide) hno
  have hobjects : (reference 2048 0 lockAndList start).2.objects = locked.objects :=
    (reference_getManagers (d := locked) (i := 0) (c := ⟨2, 1, 3, 19, 0, []⟩) 2048 0 25
      (by decide) (by decide) rfl rfl).1
  refine ⟨reach_start, by decide, ?_, hpdu.trans (if_neg not_fits_lockAndList)⟩
  rw [hdev]
  change ((reference 2048 0 lockAndList start).2.objects.getD 2 _).lockState = _
  rw [hobjects]
  decide

end Sample

end Aes70
