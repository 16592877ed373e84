import Aes70.Ocp1.Laws
import Aes70.Router.Dispatch

/-!
# What a handler depends on

A handler does not look at its writer, and from its reader it takes values only through the
accessors. So two calls that differ in the writer, or in readers which no accessor can tell apart,
have the same effect. `ApplyParameterData` is the exception: it makes a reader of its own from a
length it is sent.

* `Effect` : what a call does besides moving its reader.
* `Uniform R h` : the effect of `h` is the same for readers related by `R` and for all writers.
* `objectDispatch_uniformAt` : every dispatch is uniform, up to `ApplyParameterData`.
-/

namespace Aes70

open Handler

variable {K : Kconfig}

/-- What a call does besides moving its reader. -/
structure Effect (K : Kconfig) where
  status : Status
  dev : Device K
  fields : List Field
  pc : UInt8

/-- The result of a call with this effect, which leaves the reader `rd` and got the writer `wr`. -/
def Effect.on (e : Effect K) (rd : Reader) (wr : Writer) : Status × Call K :=
  (e.status, ⟨e.dev, rd, wr.fields e.fields, e.pc⟩)

/-- An accessor reads the same from related readers and leaves related readers. -/
def Read.Respects {α : Type} (R : Reader → Reader → Prop) (x : Read α) : Prop :=
  ∀ r r', R r r' → (x r).1 = (x r').1 ∧ R (x r).2 (x r').2

/-- Calls of `h` on `d` from the readers `rd` and `rd'` have the same effect, whatever the writer,
and leave related readers. A call that fails writes nothing. -/
def UniformAt (R : Reader → Reader → Prop) (h : Handler K) (d : Device K) (rd rd' : Reader) : Prop :=
  ∀ pc, ∃ (e : Effect K) (r r' : Reader), R r r' ∧ (e.status ≠ .ok → e.fields = []) ∧
    ∀ wr, h ⟨d, rd, wr, pc⟩ = e.on r wr ∧ h ⟨d, rd', wr, pc⟩ = e.on r' wr

theorem UniformAt.congr {R : Reader → Reader → Prop} {h k : Handler K} {d : Device K}
    {rd rd' : Reader} (hh : UniformAt R h d rd rd')
    (heq : ∀ r wr pc, k ⟨d, r, wr, pc⟩ = h ⟨d, r, wr, pc⟩) : UniformAt R k d rd rd' := by
  intro pc
  obtain ⟨e, r, r', hr, hfields, hrun⟩ := hh pc
  refine ⟨e, r, r', hr, hfields, fun wr => ?_⟩
  rw [heq, heq]
  exact hrun wr

/-- The same from any two related readers. -/
def Uniform (R : Reader → Reader → Prop) (h : Handler K) : Prop :=
  ∀ d rd rd', R rd rd' → UniformAt R h d rd rd'

section Combinators

variable {R : Reader → Reader → Prop} {α β : Type}

namespace Read

theorem respects_pure (a : α) : Respects R (pure a : Read α) := fun _ _ h => ⟨rfl, h⟩

theorem Respects.bind {x : Read α} {f : α → Read β} (hx : Respects R x)
    (hf : ∀ a, Respects R (f a)) : Respects R (x >>= f) := by
  intro r r' h
  obtain ⟨ha, hr⟩ := hx r r' h
  have hfr := hf (x r).1 _ _ hr
  change (f (x r).1 (x r).2).1 = (f (x r').1 (x r').2).1 ∧
    R (f (x r).1 (x r).2).2 (f (x r').1 (x r').2).2
  rwa [← ha]

theorem Respects.map {x : Read α} (f : α → β) (hx : Respects R x) : Respects R (f <$> x) :=
  hx.bind fun a => respects_pure (f a)

section Accessors

variable (hR : ReadRel R)
include hR

theorem respects_u8 : Respects R u8 := fun _ _ h => hR.fixed _ _ _ h

theorem respects_u16 : Respects R u16 := fun _ _ h => hR.fixed _ _ _ h

theorem respects_u32 : Respects R u32 := fun _ _ h => hR.fixed _ _ _ h

theorem respects_f32 : Respects R f32 :=
  (respects_u32 hR).bind fun _ => respects_pure _

theorem respects_f64 : Respects R f64 :=
  Respects.bind (x := u64) (fun _ _ h => hR.fixed _ _ _ h) fun _ => respects_pure _

theorem respects_string (cap : ℕ) : Respects R (string cap) := fun _ _ h => hR.string cap h

theorem respects_blob : Respects R blob := fun _ _ h => hR.blob h

end Accessors

end Read

theorem uniform_ret (st : Status) : Uniform R (ret st : Handler K) := fun d rd rd' h pc =>
  ⟨⟨st, d, [], pc⟩, rd, rd', h, fun _ => rfl, fun _ => ⟨rfl, rfl⟩⟩

theorem uniform_reply (n : UInt8) (fs : List Field) : Uniform R (reply n fs : Handler K) :=
  fun d rd rd' h _ => ⟨⟨.ok, d, fs, n⟩, rd, rd', h, fun h => absurd rfl h, fun _ => ⟨rfl, rfl⟩⟩

theorem uniform_store (f : Device K → Device K) : Uniform R (store f) := fun d rd rd' h pc =>
  ⟨⟨.ok, f d, [], pc⟩, rd, rd', h, fun _ => rfl, fun _ => ⟨rfl, rfl⟩⟩

theorem uniform_storeReply (f : Device K → Device K) (n : UInt8) (fs : List Field) :
    Uniform R (storeReply f n fs) := fun d rd rd' h _ =>
  ⟨⟨.ok, f d, fs, n⟩, rd, rd', h, fun h => absurd rfl h, fun _ => ⟨rfl, rfl⟩⟩

theorem uniform_look {f : Device K → Handler K} (h : ∀ d, Uniform R (f d)) :
    Uniform R (look f) := fun d rd rd' hr pc => h d d rd rd' hr pc

theorem uniform_reading (hR : ReadRel R) {x : Read α} {k : α → Handler K}
    (hx : Read.Respects R x) (hk : ∀ a, Uniform R (k a)) : Uniform R (reading x k) := by
  intro d rd rd' hr pc
  obtain ⟨ha, hrd⟩ := hx rd rd' hr
  have herr := hR.err hrd
  by_cases he : (x rd).2.err = true
  · refine ⟨⟨.badFormat, d, [], pc⟩, _, _, hrd, fun _ => rfl, fun wr => ⟨?_, ?_⟩⟩
    · exact reading_of_err he
    · exact reading_of_err (herr ▸ he)
  · have he' : (x rd').2.err = false := by simpa [← herr] using he
    obtain ⟨e, r, r', hrel, hfail, heq⟩ := hk (x rd).1 d _ _ hrd pc
    refine ⟨e, r, r', hrel, hfail, fun wr => ⟨?_, ?_⟩⟩
    · have hread : reading x k ⟨d, rd, wr, pc⟩ = _ :=
        reading_of_ok rfl (Bool.eq_false_iff.mpr he)
      exact hread.trans (heq wr).1
    · have hread : reading x k ⟨d, rd', wr, pc⟩ = _ := reading_of_ok rfl he'
      rw [hread, ← ha]
      exact (heq wr).2

theorem uniform_ite {p : Prop} [Decidable p] {h k : Handler K} (hh : Uniform R h)
    (hk : Uniform R k) : Uniform R (if p then h else k) := by
  split_ifs
  · exact hh
  · exact hk

theorem uniform_ranged {e m : ℕ} {v lo hi : Ieee.Binary e m} {k : Handler K}
    (hk : Uniform R k) : Uniform R (ranged v lo hi k) := uniform_ite (uniform_ret _) hk

end Combinators

/-! ### The classes -/

section Classes

variable {R : Reader → Reader → Prop} (hR : ReadRel R) (i : ObjRef) (idx : UInt16)

theorem rootDispatch_uniform : Uniform R (rootDispatch (K := K) i idx) := by
  refine uniform_look fun d => ?_
  split
  all_goals first
    | exact uniform_reply _ _
    | exact uniform_store _
    | exact uniform_ret _

theorem sensorDispatch_uniform : Uniform R (sensorDispatch (K := K) i idx) := by
  refine uniform_look fun d => ?_
  split
  · exact uniform_reply _ _
  · exact uniform_ret _

theorem levelSensorDispatch_uniform : Uniform R (levelSensorDispatch (K := K) i idx) := by
  refine uniform_look fun d => ?_
  dsimp only
  split
  · exact uniform_reply _ _
  · exact uniform_ret _

include hR

theorem workerDispatch_uniform : Uniform R (workerDispatch (K := K) i idx) := by
  refine uniform_look fun d => ?_
  split
  · exact uniform_reply _ _
  · exact uniform_reading hR (Read.respects_u8 hR) fun v => uniform_store _
  · exact uniform_reply _ _
  · exact uniform_reply _ _
  · exact uniform_reading hR (Read.respects_string hR _) fun s => uniform_store _
  · exact uniform_reply _ _
  · exact uniform_ret _

theorem agentDispatch_uniform : Uniform R (agentDispatch (K := K) i idx) := by
  refine uniform_look fun d => ?_
  split
  · exact uniform_reply _ _
  · exact uniform_reading hR (Read.respects_string hR _) fun s => uniform_store _
  · exact uniform_reply _ _
  · exact uniform_reply _ _
  · exact uniform_ret _

theorem gainDispatch_uniform : Uniform R (gainDispatch (K := K) i idx) := by
  refine uniform_look fun d => ?_
  dsimp only
  split
  · exact uniform_reply _ _
  · exact uniform_reading hR (Read.respects_f32 hR) fun g => uniform_ranged (uniform_store _)
  · exact uniform_ret _

theorem state2Dispatch_uniform : Uniform R (state2Dispatch (K := K) i idx) := by
  refine uniform_look fun d => ?_
  split
  · exact uniform_reply _ _
  · exact uniform_reading hR (Read.respects_u8 hR) fun s =>
      uniform_ite (uniform_ret _) (uniform_store _)
  · exact uniform_ret _

theorem switchDispatch_uniform : Uniform R (switchDispatch (K := K) i idx) := by
  refine uniform_look fun d => ?_
  dsimp only
  split
  · exact uniform_reply _ _
  · exact uniform_reading hR (Read.respects_u16 hR) fun p =>
      uniform_ite (uniform_ret _) (uniform_store _)
  · exact uniform_reading hR (Read.respects_u16 hR) fun k =>
      uniform_ite (uniform_ret _) (uniform_reply _ _)
  · exact uniform_reply _ _
  · exact uniform_ret _

theorem delayDispatch_uniform : Uniform R (delayDispatch (K := K) i idx) := by
  refine uniform_look fun d => ?_
  dsimp only
  split
  · exact uniform_reply _ _
  · exact uniform_reading hR (Read.respects_f64 hR) fun t => uniform_ranged (uniform_store _)
  · exact uniform_ret _

theorem identifyDispatch_uniform : Uniform R (identifyDispatch (K := K) i idx) := by
  refine uniform_look fun d => ?_
  split
  · exact uniform_reply _ _
  · exact uniform_reading hR (Read.respects_u8 hR) fun v => uniform_store _
  · exact uniform_ret _

theorem setNumber_uniform (o : Obj) {r : Read F64} (hr : Read.Respects R r) :
    Uniform R (setNumber (K := K) i o r) :=
  uniform_reading hR hr fun _ => uniform_ranged (uniform_store _)

theorem basicActuatorDispatch_uniform : Uniform R (basicActuatorDispatch (K := K) i idx) := by
  refine uniform_look fun d => ?_
  split
  · unfold getSetting
    split
    all_goals first | exact uniform_reply _ _ | exact uniform_ret _
  · unfold setSetting
    split
    · exact uniform_reading hR (Read.respects_u8 hR) fun v => uniform_store _
    · exact uniform_reading hR (Read.respects_string hR _) fun s =>
        uniform_ite (uniform_ret _) (uniform_store _)
    · exact setNumber_uniform hR i _ ((Read.respects_f32 hR).map _)
    · exact setNumber_uniform hR i _ ((Read.respects_u32 hR).map _)
    · exact setNumber_uniform hR i _ ((Read.respects_u16 hR).map _)
    · exact setNumber_uniform hR i _ ((Read.respects_u32 hR).map _)
    · exact uniform_ret _
  · exact uniform_ret _

/-! DSP classes. -/

theorem dspMethod_uniform {h : Handler K} (hm : DspMethod i h) : Uniform R h := by
  induction hm with
  | ret st => exact uniform_ret st
  | reply n fs => exact uniform_reply n fs
  | store => exact uniform_store _
  | look _ ih => exact uniform_look ih
  | ranged _ ih => exact uniform_ranged ih
  | ite _ _ ih ih' => exact uniform_ite ih ih'
  | byte _ ih => exact uniform_reading hR (Read.respects_u8 hR) ih
  | word _ ih => exact uniform_reading hR (Read.respects_u16 hR) ih
  | float _ ih => exact uniform_reading hR (Read.respects_f32 hR) ih
  | dbr _ ih =>
    exact uniform_reading hR ((Read.respects_f32 hR).bind fun _ =>
      (Read.respects_f32 hR).bind fun _ => Read.respects_pure _) ih

/-! Grouper and matrix. -/

theorem addGroup_uniform (g : GrouperPriv) : Uniform R (addGroup (K := K) i g) := by
  refine uniform_reading hR (Read.respects_string hR _) fun name => ?_
  split
  · exact uniform_ret _
  · refine uniform_look fun d => ?_
    split
    · next d' _ =>
      exact fun _ rd rd' h pc =>
        ⟨⟨_, d', [], pc⟩, rd, rd', h, fun _ => rfl, fun _ => ⟨rfl, rfl⟩⟩
    · exact uniform_storeReply _ _ _

theorem addCitizen_uniform (g : GrouperPriv) : Uniform R (addCitizen (K := K) i g) := by
  have hread : Read.Respects R (do
      let _ ← Read.u16
      let host ← Read.blob
      let ono ← Read.u32
      let _ ← Read.u8
      return ((host.getD []).length, ono)) :=
    (Read.respects_u16 hR).bind fun _ => (Read.respects_blob hR).bind fun _ =>
      (Read.respects_u32 hR).bind fun _ => (Read.respects_u8 hR).bind fun _ =>
        Read.respects_pure _
  refine uniform_reading hR hread fun ⟨hostLen, ono⟩ => uniform_look fun d => ?_
  refine uniform_ite (uniform_ret _) ?_
  split
  · exact uniform_ret _
  · refine uniform_ite (uniform_ret _) ?_
    split
    · exact uniform_ret _
    · exact uniform_storeReply _ _ _

theorem respects_readEnrollment : Read.Respects R readEnrollment :=
  (Read.respects_u16 hR).bind fun _ => (Read.respects_u16 hR).bind fun _ => Read.respects_pure _

theorem grouperDispatch_uniform : Uniform R (grouperDispatch (K := K) i idx) := by
  refine uniform_look fun d => ?_
  split
  · next g _ =>
    split
    · exact addGroup_uniform hR i g
    · refine uniform_reading hR (Read.respects_u16 hR) fun gi => ?_
      split
      · exact uniform_ite (uniform_store _) (uniform_ret _)
      · exact uniform_ret _
    · exact uniform_reply _ _
    · exact uniform_reply _ _
    · exact addCitizen_uniform hR i g
    · refine uniform_reading hR (Read.respects_u16 hR) fun ci => ?_
      split
      · exact uniform_ite (uniform_store _) (uniform_ret _)
      · exact uniform_ret _
    · exact uniform_reply _ _
    · exact uniform_reply _ _
    · refine uniform_reading hR (respects_readEnrollment hR) fun ⟨gi, ci⟩ => ?_
      dsimp only
      split
      · exact uniform_reply _ _
      · exact uniform_ret _
    · refine uniform_reading hR ((respects_readEnrollment hR).bind fun _ =>
        (Read.respects_u8 hR).bind fun _ => Read.respects_pure _) fun ⟨⟨gi, ci⟩, on⟩ => ?_
      dsimp only
      split
      · exact uniform_ite (uniform_ret _) (uniform_store _)
      · exact uniform_ret _
    · refine uniform_reading hR (Read.respects_u16 hR) fun gi => ?_
      split
      · exact uniform_reply _ _
      · exact uniform_ret _
    · exact uniform_reply _ _
    · exact uniform_reading hR (Read.respects_u8 hR) fun v => uniform_store _
    · exact uniform_reply _ _
    · exact uniform_reading hR (Read.respects_u8 hR) fun m =>
        uniform_ite (uniform_ret _) (uniform_store _)
    · exact uniform_ret _
  · exact uniform_ret _

theorem respects_readXY : Read.Respects R readXY :=
  (Read.respects_u16 hR).bind fun _ => (Read.respects_u16 hR).bind fun _ => Read.respects_pure _

theorem respects_readMembers (cs : List (ℕ × ℕ)) (m : MatrixPriv) :
    Read.Respects R (readMembers cs m) := by
  induction cs generalizing m with
  | nil => exact Read.respects_pure m
  | cons c cs ih => exact (Read.respects_u32 hR).bind fun ono => ih _

theorem setMembers_uniform (m : MatrixPriv) : Uniform R (setMembers (K := K) i m) := by
  refine uniform_reading hR (respects_readXY hR) fun ⟨rows, cols⟩ =>
    uniform_ite (uniform_ret _) fun d rd rd' h pc => ?_
  let read := readMembers (cells rows.toNat cols.toNat) { m with ySize := rows, xSize := cols }
  obtain ⟨hm, hrd⟩ : (read rd).1 = (read rd').1 ∧ R (read rd).2 (read rd').2 :=
    respects_readMembers hR _ _ rd rd' h
  refine ⟨⟨if (read rd).2.err then .badFormat else .ok, storeMatrix i (read rd).1 d, [], pc⟩,
    (read rd).2, (read rd').2, hrd, fun _ => rfl, fun wr => ⟨rfl, ?_⟩⟩
  rw [hm, hR.err hrd]
  rfl

theorem matrixDispatch_uniform : Uniform R (matrixDispatch (K := K) i idx) := by
  refine uniform_look fun d => ?_
  split
  · next m _ =>
    split
    case h_6 => exact setMembers_uniform hR i m
    case h_8 =>
      exact uniform_reading hR ((respects_readXY hR).bind fun _ =>
        (Read.respects_u32 hR).bind fun _ => Read.respects_pure _) fun ⟨⟨x, y⟩, ono⟩ =>
          uniform_ite (uniform_store _) (uniform_ret _)
    all_goals first
      | exact uniform_reply _ _
      | exact uniform_store _
      | exact uniform_ret _
      | exact uniform_reading hR (Read.respects_u8 hR) fun v => uniform_store _
      | exact uniform_reading hR (Read.respects_u32 hR) fun v => uniform_store _
      | exact uniform_reading hR (respects_readXY hR) fun ⟨x, y⟩ =>
          uniform_ite (uniform_ret _) (uniform_store _)
      | exact uniform_reading hR (respects_readXY hR) fun ⟨x, y⟩ =>
          uniform_ite (uniform_reply _ _) (uniform_ret _)
      | exact uniform_reading hR (respects_readXY hR) fun ⟨x, y⟩ =>
          uniform_ite (uniform_ret _) (uniform_ite (uniform_ret _) (uniform_store _))
  · exact uniform_ret _

/-! Managers and blocks. -/

theorem devmgrDispatch_uniform : Uniform R (devmgrDispatch (K := K) i idx) := by
  refine uniform_look fun d => ?_
  split
  all_goals first
    | exact uniform_reply _ _
    | exact uniform_reading hR (Read.respects_string hR _) fun s => uniform_store _
    | exact uniform_ret _

omit hR in
theorem blockDispatch_uniform (hidx : idx ≠ 26) : Uniform R (blockDispatch (K := K) i idx) := by
  refine uniform_look fun d => ?_
  split
  case h_5 => exact absurd rfl hidx
  all_goals first
    | exact uniform_reply _ _
    | exact uniform_ret _

theorem respects_readEvent : Read.Respects R readEvent :=
  (Read.respects_u32 hR).bind fun _ => (Read.respects_u16 hR).bind fun _ =>
    (Read.respects_u16 hR).bind fun _ => Read.respects_pure _

theorem respects_readSubscription (ev2 : Bool) : Read.Respects R (readSubscription ev2) := by
  refine (respects_readEvent hR).bind fun e => ?_
  cases ev2
  · exact (respects_readEvent hR).bind fun _ => (Read.respects_blob hR).bind fun _ =>
      (Read.respects_u8 hR).bind fun _ => Read.respects_pure _
  · exact (Read.respects_pure _).bind fun _ => (Read.respects_pure _).bind fun _ =>
      (Read.respects_u8 hR).bind fun _ => Read.respects_pure _

theorem addSubscription_uniform (ev2 : Bool) : Uniform R (addSubscription (K := K) ev2) := by
  refine uniform_reading hR (respects_readSubscription hR ev2) fun s => uniform_look fun d => ?_
  split
  · exact uniform_ret _
  · refine uniform_ite (uniform_ret _) ?_
    split
    · exact uniform_ret _
    · exact uniform_store _

theorem submgrDispatch_uniform : Uniform R (submgrDispatch (K := K) i idx) := by
  unfold submgrDispatch
  split
  · exact addSubscription_uniform hR _
  · exact uniform_reading hR (respects_readEvent hR) fun e => uniform_store _
  · exact uniform_store _
  · exact uniform_store _
  · exact addSubscription_uniform hR _
  · exact uniform_reading hR (respects_readEvent hR) fun e => uniform_store _
  · exact uniform_ret _

/-! ### Dispatch -/

/-- Every handler but `ApplyParameterData` is uniform. -/
theorem handler_uniform {kind : Kind} {level : UInt16} {h : ObjRef → UInt16 → Handler K}
    (hh : handlerFor kind level = some h) (ha : ¬(kind = .block ∧ level = 3 ∧ idx = 26)) :
    Uniform R (h i idx) := by
  cases handlerOf_of_handlerFor hh with
  | root => exact rootDispatch_uniform i idx
  | worker => exact workerDispatch_uniform hR i idx
  | agent => exact agentDispatch_uniform hR i idx
  | block => exact blockDispatch_uniform i idx (by simpa using ha)
  | grouper => exact grouperDispatch_uniform hR i idx
  | matrix => exact matrixDispatch_uniform hR i idx
  | devmgr => exact devmgrDispatch_uniform hR i idx
  | submgr => exact submgrDispatch_uniform hR i idx
  | sensor => exact sensorDispatch_uniform i idx
  | levelSensor => exact levelSensorDispatch_uniform i idx
  | gain => exact gainDispatch_uniform hR i idx
  | state2 => exact state2Dispatch_uniform hR i idx
  | switch => exact switchDispatch_uniform hR i idx
  | delay => exact delayDispatch_uniform hR i idx
  | identify => exact identifyDispatch_uniform hR i idx
  | dynamics => exact dspMethod_uniform hR i dynamicsDispatch_dspMethod
  | filter => exact dspMethod_uniform hR i filterDispatch_dspMethod
  | peq => exact dspMethod_uniform hR i peqDispatch_dspMethod
  | pan => exact dspMethod_uniform hR i panDispatch_dspMethod
  | siggen => exact dspMethod_uniform hR i siggenDispatch_dspMethod
  | basic => exact basicActuatorDispatch_uniform hR i idx

/-- A dispatch that reaches the handler of `ApplyParameterData`. -/
def Recalls (d : Device K) (i : ObjRef) (level index : UInt16) : Prop :=
  (d.obj i).kind = .block ∧ level = 3 ∧ index = 26 ∧ d.gate i level index = none

/-- **Every dispatch is uniform**, provided `ApplyParameterData` is on the readers at hand. -/
theorem objectDispatch_uniformAt {d : Device K} {level : UInt16} {rd rd' : Reader} (h : R rd rd')
    (ha : Recalls d i level idx → UniformAt R applyParameterData d rd rd') :
    UniformAt R (objectDispatch i level idx) d rd rd' := by
  cases hh : handlerFor (K := K) (d.obj i).kind level with
  | none =>
    refine (uniform_ret .badMethod d rd rd' h).congr fun _ _ _ => ?_
    simp only [objectDispatch, look, hh]
  | some hd =>
    cases hg : d.gate i level idx with
    | some st =>
      refine (uniform_ret st d rd rd' h).congr fun _ _ _ => ?_
      simp only [objectDispatch, look, hh, hg]
    | none =>
      have hrun : UniformAt R (hd i idx) d rd rd' := by
        by_cases hrec : (d.obj i).kind = .block ∧ level = 3 ∧ idx = 26
        · obtain ⟨hk, rfl, rfl⟩ := hrec
          rw [hk] at hh
          obtain rfl : blockDispatch = hd := Option.some.inj hh
          exact ha ⟨hk, rfl, rfl, hg⟩
        · exact handler_uniform hR i idx hh hrec d rd rd' h
      refine hrun.congr fun _ _ _ => ?_
      simp only [objectDispatch, look, hh, hg]

end Classes

end Aes70
