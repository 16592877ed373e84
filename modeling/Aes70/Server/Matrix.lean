import Aes70.Class.Grid
import Aes70.Server.Grouper
import Aes70.Server.Turns

/-!
# A matrix over the life of the device

Of all turns of the device, a matrix sees its own method calls that the gate lets through and the
stores of the application. Between them it does not change, so what is true of the matrix as a
machine is true of the object.

* `Device.asks` : what a turn calls the matrix with.
* `grid_turn` : a turn leaves what `serve` leaves.
* `matrix_sized_iff` : the size, the selection and every access are in bounds, over all runs in
  which no call shrinks the matrix.
* `matrix_locked_iff` : a locked selection stays, over all runs in which no call shifts it.
-/

namespace Aes70

open Device Handler

variable {K : Kconfig}

/-! ### Turns -/

/-- Object `i` is a matrix, and `m` what it holds. -/
structure Device.Grid (d : Device K) (i : ObjRef) (m : MatrixPriv) : Prop where
  kind : (d.obj i).kind = .matrix
  priv : (d.obj i).priv = .matrix m

/-- What a turn calls the matrix `i` with. -/
def Device.asks (d : Device K) (i : ObjRef) : Turn K → Option MatrixCall
  | .command conn cmd params =>
    if d.find cmd.target = some i ∧ cmd.level = 3 ∧
        ({ d with activeConn := some conn } : Device K).gate i 3 cmd.index = none then
      some (.method cmd.index params)
    else none
  | .setMember j x y member =>
    if j = i then some (.cell x y ((member.map fun q => (d.obj q).ono).getD 0)) else none
  | _ => none

/-- What a turn leaves in the matrix. -/
def MatrixPriv.after (m : MatrixPriv) (call : Option MatrixCall) : MatrixPriv :=
  call.elim m m.serve

section Turns

variable {d d' : Device K} {i : ObjRef} {m m' : MatrixPriv}

/-- The class and the private state of an object. -/
def Obj.inner (o : Obj) : Kind × Priv := (o.kind, o.priv)

theorem Device.Grid.congr (h : d.Grid i m) (hinner : (d'.obj i).inner = (d.obj i).inner) :
    d'.Grid i m :=
  ⟨(congrArg Prod.fst hinner).trans h.kind, (congrArg Prod.snd hinner).trans h.priv⟩

theorem Device.Grid.lt (h : d.Grid i m) : i < d.objects.length :=
  lt_of_kind (by rw [h.kind]; decide)

theorem Device.Grid.eq (h : d.Grid i m) (h' : d.Grid i m') : m = m' := by
  injection h.priv.symm.trans h'.priv

theorem grid_storeMatrix (h : d.Grid i m) : (storeMatrix i m' d).Grid i m' := by
  have hobj : (storeMatrix i m' d).obj i = { d.obj i with priv := .matrix m' } :=
    obj_modifyObj_self h.lt _
  refine ⟨?_, ?_⟩
  · rw [hobj]
    exact h.kind
  · rw [hobj]

/-- A method of the matrix that is let through. -/
theorem grid_dispatch {c : Call K} {idx : UInt16} (h : c.dev.Grid i m)
    (hg : c.dev.gate i 3 idx = none) :
    (objectDispatch i 3 idx c).2.dev.Grid i (m.serve (.method idx c.rd)) := by
  have hh : handlerFor (K := K) (c.dev.obj i).kind 3 = some matrixDispatch := by
    rw [h.kind]
    rfl
  rw [objectDispatch_of_handler hh hg rfl, matrixDispatch_serve h.priv]
  exact grid_storeMatrix h

/-- A method of a base class, or one that is stopped. -/
theorem grid_dispatch_other {c : Call K} {level idx : UInt16} (h : c.dev.Grid i m)
    (hnot : ¬(level = 3 ∧ c.dev.gate i 3 idx = none)) :
    (objectDispatch i level idx c).2.dev.Grid i m := by
  cases hg : c.dev.gate i level idx with
  | some st =>
    rw [objectDispatch_of_gate hg rfl]
    exact h
  | none =>
    cases hh : handlerFor (K := K) (c.dev.obj i).kind level with
    | none =>
      rw [objectDispatch_of_none hh]
      exact h
    | some f =>
      rw [objectDispatch_of_handler hh hg rfl]
      have hof := handlerOf_of_handlerFor hh
      rw [h.kind] at hof
      cases hof with
      | root => exact h.congr (rootDispatch_congr (fun _ _ _ => by rfl) i idx c rfl)
      | worker =>
        exact h.congr (workerDispatch_congr (fun _ _ => by rfl) (fun _ _ => by rfl) i idx c rfl)
      | matrix => exact absurd ⟨rfl, hg⟩ hnot
      | sensor _ hne | levelSensor _ hne | gain _ hne | state2 _ hne | basic _ hne => simp at hne

/-- A command calls the matrix, or leaves it alone. -/
theorem grid_command (h : d.Grid i m) (conn : ℕ) (cmd : Command) (rd : Reader) :
    (answer K.txBufferSize conn cmd rd d).dev.Grid i
      (m.after (d.asks i (.command conn cmd rd))) := by
  let c : Call K := ⟨{ d with activeConn := some conn }, rd, Writer.init K.txBufferSize, 0⟩
  have hc : c.dev.Grid i m := ⟨h.kind, h.priv⟩
  change (execCommand conn cmd c).2.dev.Grid i (m.after (if d.find cmd.target = some i ∧
    cmd.level = 3 ∧ c.dev.gate i 3 cmd.index = none then some (.method cmd.index rd) else none))
  cases hf : c.dev.find cmd.target with
  | none =>
    have hfind : d.find cmd.target = none := hf
    rw [execCommand_of_none hf, if_neg fun hasks => by cases hfind.symm.trans hasks.1]
    exact ⟨h.kind, h.priv⟩
  | some j =>
    have hfind : d.find cmd.target = some j := hf
    rw [execCommand_of_find hf]
    by_cases hij : i = j
    · subst hij
      by_cases hasks : cmd.level = 3 ∧ c.dev.gate i 3 cmd.index = none
      · rw [if_pos ⟨hfind, hasks⟩, hasks.1]
        have hgrid := grid_dispatch hc hasks.2
        exact ⟨hgrid.kind, hgrid.priv⟩
      · rw [if_neg fun hall => hasks hall.2]
        have hgrid : (objectDispatch i cmd.level cmd.index c).2.dev.Grid i m :=
          grid_dispatch_other hc hasks
        exact ⟨hgrid.kind, hgrid.priv⟩
    · rw [if_neg fun hasks => hij (Option.some.inj (hasks.1.symm.trans hfind))]
      have hout := objectDispatch_outcome (d := c.dev) j cmd.level cmd.index c rfl
      have hinner := hout.frame (p := Obj.inner) (find_lt hf) hc.lt (Ne.symm hij)
        (fun _ _ => by rfl) (fun _ _ => by rfl) fun _ _ _ => by rfl
      have hgrid := hc.congr hinner
      exact ⟨hgrid.kind, hgrid.priv⟩

/-- **A turn calls the matrix**, or leaves it alone. -/
theorem grid_turn {t : Turn K} (h : d.Grid i m) (ht : t.Legal d) :
    (t.run d).Grid i (m.after (d.asks i t)) := by
  cases t with
  | create call parent role =>
    exact h.congr (create_congr (p := Obj.inner) (fun _ _ => by rfl) (fun _ _ => by rfl) call parent
      role h.lt)
  | setMember j x y member =>
    by_cases hji : j = i
    · subst hji
      have hasks : d.asks j (.setMember j x y member) =
          some (.cell x y ((member.map fun q => (d.obj q).ono).getD 0)) := if_pos rfl
      rw [hasks]
      change (d.matrixSetMember j x y member).Grid j
        (m.serve (.cell x y ((member.map fun q => (d.obj q).ono).getD 0)))
      simp only [Device.matrixSetMember, h.kind, h.priv, MatrixPriv.serve]
      split_ifs
      · exact grid_storeMatrix h
      · exact h
    · have hasks : d.asks i (.setMember j x y member) = none := if_neg hji
      rw [hasks]
      change (d.matrixSetMember j x y member).Grid i m
      unfold Device.matrixSetMember
      split
      · split_ifs
        · exact h.congr (congrArg Obj.inner (obj_modifyObj_ne hji _))
        · exact h
      · exact h
  | command conn cmd rd => exact grid_command h conn cmd rd
  | set req =>
    have hdsp : dspIsDspKind (d.obj i).kind = false := by
      rw [h.kind]
      rfl
    exact h.congr (applySet_congr (p := Obj.inner) (fun _ _ => by rfl) (fun _ _ => by rfl) hdsp req)
  | send c frame => exact h.congr (congrArg Obj.inner (obj_eq_of_core (core_connSend d c frame) i))
  | session d' => exact h.congr (ht.obj_congr (fun _ => by rfl) i)

end Turns

/-! ### Bounds -/

/-- Object `i` is a matrix with its size within the bounds and its selection within the size. -/
def Device.MatrixSized (d : Device K) (i : ObjRef) : Prop := ∃ m, d.Grid i m ∧ m.Sized

/-- The turn uses members that are in the array. -/
def Device.AccessesInside (d : Device K) (i : ObjRef) (t : Turn K) : Prop :=
  ∀ m, d.Grid i m → ∀ call, d.asks i t = some call →
    ∀ y x, (y, x) ∈ m.accesses call → y < 16 ∧ x < 16

/-- The turn gives the matrix a size without cells, or one that does not hold the selection. -/
def Device.Shrinks (d : Device K) (i : ObjRef) (t : Turn K) : Prop :=
  ∃ m call, d.Grid i m ∧ d.asks i t = some call ∧ m.Shrinks call

section Bounds

variable {d d' : Device K} {i : ObjRef}

theorem fits_after {m : MatrixPriv} (h : m.Fits) (call : Option MatrixCall) :
    (m.after call).Fits := by
  cases call with
  | none => exact h
  | some call => exact MatrixPriv.fits_serve h call

/-- One turn. -/
theorem sized_turn_iff {t : Turn K} {m : MatrixPriv} (h : d.Grid i m) (hsized : m.Sized)
    (ht : t.Legal d) : (t.run d).MatrixSized i ↔ ¬d.Shrinks i t := by
  have hgrid := grid_turn h ht
  have hafter : (t.run d).MatrixSized i ↔ (m.after (d.asks i t)).Sized :=
    ⟨fun ⟨m', hm', hs⟩ => hgrid.eq hm' ▸ hs, fun hs => ⟨_, hgrid, hs⟩⟩
  have hshrinks : d.Shrinks i t ↔ ∃ call, d.asks i t = some call ∧ m.Shrinks call :=
    ⟨fun ⟨m', call, hm', hrest⟩ => ⟨call, h.eq hm' ▸ hrest⟩,
      fun ⟨call, hrest⟩ => ⟨m, call, h, hrest⟩⟩
  rw [hafter, hshrinks]
  cases d.asks i t with
  | none => exact iff_of_true hsized fun ⟨_, hcall, _⟩ => by cases hcall
  | some call =>
    refine (MatrixPriv.sized_serve_iff hsized).trans (not_congr ?_)
    exact ⟨fun hs => ⟨call, rfl, hs⟩, fun ⟨call', hcall, hs⟩ => Option.some.inj hcall ▸ hs⟩

/-- A new matrix. -/
theorem grid_create {x y : UInt16} {parent : Option ObjRef} {role : Bytes}
    (hnew : d.objects.length < (d.create (.matrix x y) parent role).objects.length) :
    (d.create (.matrix x y) parent role).Grid d.objects.length (.init x y) := by
  obtain ⟨o, hkind, hobj⟩ := obj_create hnew (le_refl _)
  exact ⟨by rw [hobj]; exact hkind, by rw [hobj]; rfl⟩

/-- **The bounds of a matrix**: in a run from its creation on, its size stays within its bounds, its
selection within its size and every access within the member array, if and only if no call shrinks
it. -/
theorem matrix_sized_iff {x y : UInt16} (hx : 1 ≤ x ∧ x ≤ 16) (hy : 1 ≤ y ∧ y ≤ 16)
    {parent : Option ObjRef} {role : Bytes}
    (hnew : d.objects.length < (d.create (.matrix x y) parent role).objects.length)
    {ts : List (Turn K)} (hrun : (turns K).Run (d.create (.matrix x y) parent role) ts d') :
    (turns K).Along (fun e => e.MatrixSized d.objects.length)
        (fun e t => e.AccessesInside d.objects.length t) (d.create (.matrix x y) parent role) ts ↔
      ((turns K).restrict fun e t => ¬e.Shrinks d.objects.length t).Run
        (d.create (.matrix x y) parent role) ts d' := by
  have hgrid := grid_create hnew
  refine hrun.along_iff (I := fun e => ∃ m, e.Grid d.objects.length m ∧ m.Fits)
    ⟨_, hgrid, MatrixPriv.fits_init x y⟩ ⟨_, hgrid, MatrixPriv.sized_init hx hy⟩ ?_ ?_
  · rintro e t ⟨m, hm, hfits⟩ ht
    exact ⟨_, grid_turn hm ht, fits_after hfits _⟩
  · rintro e t ⟨m, hm, hfits⟩ ⟨m', hm', hsized⟩ ht
    obtain rfl := hm.eq hm'
    rw [← sized_turn_iff hm hsized ht]
    refine and_iff_left fun m' hm' call hcall y x hcell => ?_
    obtain rfl := hm.eq hm'
    exact MatrixPriv.accesses_lt hfits hcell

end Bounds

namespace Sample

/-- The sample device with a matrix of 2 × 2 cells, object 3 with the number 4096. -/
def crosspoints : Device .default := start.create (.matrix 2 2) none (ascii "crosspoints")

/-- A method of the matrix. -/
def call (index : UInt16) (params : Bytes) : Turn .default :=
  .command 0 ⟨1, 4096, 3, index, 1, params⟩ (Reader.ofBytes params)

/-- `SetCurrentXY` of the last cell. -/
def selectLast : Turn .default := call 2 [0, 2, 0, 2]

/-- `SetMembers` with one cell. -/
def oneMember : Turn .default := call 6 [0, 1, 0, 1, 0, 0, 0x10, 0]

/-- The selection and the size of a matrix. -/
def gridOf (d : Device .default) (i : ObjRef) : Option ((UInt16 × UInt16) × UInt16 × UInt16) :=
  match (d.obj i).priv with
  | .matrix m => some ((m.curX, m.curY), m.xSize, m.ySize)
  | _ => none

theorem gridOf_eq {d : Device .default} {i : ObjRef} {m : MatrixPriv} (h : d.Grid i m) :
    gridOf d i = some ((m.curX, m.curY), m.xSize, m.ySize) := by
  unfold gridOf
  rw [h.priv]

theorem asks_call {d : Device .default} {i : ObjRef} {index : UInt16} {params : Bytes}
    {c : MatrixCall} (h : d.asks i (call index params) = some c) :
    c = .method index (Reader.ofBytes params) := by
  simp only [call, Device.asks] at h
  split_ifs at h
  exact (Option.some.inj h).symm

theorem legal_call {d : Device .default} {index : UInt16} {params : Bytes} :
    (turns .default).ok d (call index params) := ⟨rfl, _, rfl, Ptr.read_ofBytes params _⟩

/-- `SetMembers` with all four cells. -/
def fourMembers : Turn .default := call 6 ([0, 2, 0, 2] ++ List.replicate 16 0)

/-- A member list that still holds the selection leaves it within the size. -/
theorem sized_fourMembers : (turns .default).Along (fun e => e.MatrixSized 3)
    (fun e t => e.AccessesInside 3 t) crosspoints [selectLast, fourMembers] := by
  have hselect : ¬crosspoints.Shrinks 3 selectLast := by
    rintro ⟨m, c, -, hasks, rd, hsix, -⟩
    cases (asks_call hasks).symm.trans hsix
  have hlist : ¬(selectLast.run crosspoints).Shrinks 3 fourMembers := by
    rintro ⟨m, c, hm, hasks, rd, hsix, -, hshrinks⟩
    obtain rfl : Reader.ofBytes ([0, 2, 0, 2] ++ List.replicate 16 0) = rd := by
      cases (asks_call hasks).symm.trans hsix
      rfl
    have hgrid : gridOf (selectLast.run crosspoints) 3 = some ((2, 2), 2, 2) := by decide
    have hsel := (gridOf_eq hm).symm.trans hgrid
    injection hsel with hsel
    obtain ⟨hcurX, hcurY⟩ := Prod.mk.inj (Prod.mk.inj hsel).1
    rw [hcurX, hcurY] at hshrinks
    exact hshrinks (by decide)
  exact (matrix_sized_iff (d := start) (by decide) (by decide) (by decide)
    (.cons legal_call (.cons legal_call (.nil _)))).2
      (.cons ⟨legal_call, hselect⟩ (.cons ⟨legal_call, hlist⟩ (.nil _)))

/-- A member list with one cell leaves the selection outside. -/
theorem not_sized_oneMember :
    (turns .default).Run crosspoints [selectLast, oneMember]
        (oneMember.run (selectLast.run crosspoints)) ∧
      ¬(turns .default).Along (fun e => e.MatrixSized 3) (fun e t => e.AccessesInside 3 t)
        crosspoints [selectLast, oneMember] := by
  refine ⟨.cons (legal_call) (.cons (legal_call) (.nil _)), fun halong => ?_⟩
  obtain ⟨m, hm, hsized⟩ := halong.2.2.2.2
  have hgrid : gridOf (oneMember.run (selectLast.run crosspoints)) 3 = some ((2, 2), 1, 1) := by
    decide
  have hsel := (gridOf_eq hm).symm.trans hgrid
  injection hsel with hsel
  obtain ⟨hcur, hsize⟩ := Prod.mk.inj hsel
  have hcurX := hsized.curX
  rw [(Prod.mk.inj hcur).1, (Prod.mk.inj hsize).1] at hcurX
  exact absurd hcurX (by decide)

end Sample

/-! ### The lock of the selection -/

/-- Object `i` is a matrix with its selection locked at this position. -/
def Device.SelectionLocked (d : Device K) (i : ObjRef) (x y : UInt16) : Prop :=
  ∃ m, d.Grid i m ∧ m.LockedAt x y

/-- If the turn is a command that asks the matrix for another selection, and access control does not
deny it, then it is answered with Locked. -/
def Device.AnswersLocked (d : Device K) (i : ObjRef) : Turn K → Prop
  | .command conn cmd rd => ∀ m, d.Grid i m → d.find cmd.target = some i → cmd.level = 3 →
    ({ d with activeConn := some conn } : Device K).gate i 3 cmd.index ≠ some .permissionDenied →
      m.Selects (.method cmd.index rd) →
        (answer K.txBufferSize conn cmd rd d).response.status = .locked
  | _ => True

/-- The turn is an `UnlockCurrent`. -/
def Device.Unlocks (d : Device K) (i : ObjRef) (t : Turn K) : Prop :=
  ∃ rd, d.asks i t = some (.method 16 rd)

/-- The turn moves the selection past the lock. -/
def Device.Shifts (d : Device K) (i : ObjRef) (t : Turn K) : Prop :=
  ∃ m call, d.Grid i m ∧ d.asks i t = some call ∧ m.Shifts call

section Locks

variable {d d' : Device K} {i : ObjRef} {m : MatrixPriv} {x y : UInt16}

/-- The gate refuses in two ways. -/
theorem gate_cases {st : Status} {level index : UInt16} (h : d.gate i level index = some st) :
    st = .permissionDenied ∨ st = .locked := by
  unfold Device.gate at h
  dsimp only at h
  split_ifs at h
  · exact .inl (Option.some.inj h).symm
  · exact .inr (Option.some.inj h).symm

/-- A method of the matrix that is stopped. -/
theorem status_of_gate {c : Call K} {idx : UInt16} {st : Status} (h : c.dev.Grid i m)
    (hg : c.dev.gate i 3 idx = some st) : (objectDispatch i 3 idx c).1 = st := by
  have hh : handlerFor (K := K) (c.dev.obj i).kind 3 = some matrixDispatch := by
    rw [h.kind]
    rfl
  rw [objectDispatch_of_stop hh hg]

/-- A method of the matrix that is let through. -/
theorem status_of_method {c : Call K} {idx : UInt16} (h : c.dev.Grid i m)
    (hg : c.dev.gate i 3 idx = none) :
    (objectDispatch i 3 idx c).1 = .locked ↔ m.Refuses (.method idx c.rd) := by
  have hh : handlerFor (K := K) (c.dev.obj i).kind 3 = some matrixDispatch := by
    rw [h.kind]
    rfl
  rw [objectDispatch_of_handler hh hg rfl, matrixDispatch_locked_iff h.priv]
  constructor
  · rintro ⟨rfl, hrest⟩
    exact ⟨c.rd, rfl, hrest⟩
  · rintro ⟨rd, heq, hrest⟩
    injection heq with hidx hrd
    exact ⟨hidx, hrd ▸ hrest⟩

/-- What commands are answered with, and what they call the matrix with. -/
theorem answersLocked_iff {t : Turn K} (h : d.Grid i m) :
    d.AnswersLocked i t ↔ ∀ idx rd, d.asks i t = some (.method idx rd) →
      m.Selects (.method idx rd) → m.Refuses (.method idx rd) := by
  cases t with
  | command conn cmd rd =>
    let c : Call K := ⟨{ d with activeConn := some conn }, rd, Writer.init K.txBufferSize, 0⟩
    have hc : c.dev.Grid i m := ⟨h.kind, h.priv⟩
    have hstatus (hf : d.find cmd.target = some i) (hlevel : cmd.level = 3) :
        (answer K.txBufferSize conn cmd rd d).response.status =
          (objectDispatch i 3 cmd.index c).1 := by
      have hfind : c.dev.find cmd.target = some i := hf
      change (execCommand conn cmd c).1 = _
      rw [execCommand_of_find hfind, hlevel]
    constructor
    · intro hanswers idx rd' hasks hselects
      -- the matrix was asked, so the gate let the command through
      simp only [Device.asks] at hasks
      split_ifs at hasks with hall
      obtain ⟨hf, hlevel, hg⟩ := hall
      injection hasks with hcall
      injection hcall with hidx hrd
      subst hidx hrd
      have hnot : c.dev.gate i 3 cmd.index ≠ some .permissionDenied := by
        intro hdenied
        cases hg.symm.trans hdenied
      exact (status_of_method hc hg).1 ((hstatus hf hlevel).symm.trans
        (hanswers m h hf hlevel hnot hselects))
    · intro hrefuses m' hm' hf hlevel hdenied hselects
      obtain rfl := h.eq hm'
      rw [hstatus hf hlevel]
      cases hg : c.dev.gate i 3 cmd.index with
      | none =>
        refine (status_of_method hc hg).2 (hrefuses cmd.index rd ?_ hselects)
        exact if_pos ⟨hf, hlevel, hg⟩
      -- a stop that is no denial is for a lock, and answered like a refusal
      | some st =>
        rw [status_of_gate hc hg]
        exact (gate_cases hg).resolve_left fun hst => hdenied (hst ▸ hg)
  | setMember j x y member =>
    refine iff_of_true trivial fun idx rd hasks => ?_
    simp only [Device.asks] at hasks
    split_ifs at hasks
    cases hasks
  | _ => exact iff_of_true trivial fun idx rd hasks => by cases hasks

/-- One turn. -/
theorem locked_turn_iff {t : Turn K} (h : d.Grid i m) (hlocked : m.LockedAt x y)
    (ht : t.Legal d) (hkeep : ¬d.Unlocks i t) :
    (t.run d).SelectionLocked i x y ∧ d.AnswersLocked i t ↔ ¬d.Shifts i t := by
  have hgrid := grid_turn h ht
  have hafter : (t.run d).SelectionLocked i x y ↔ (m.after (d.asks i t)).LockedAt x y :=
    ⟨fun ⟨m', hm', hs⟩ => hgrid.eq hm' ▸ hs, fun hs => ⟨_, hgrid, hs⟩⟩
  have hshifts : d.Shifts i t ↔ ∃ call, d.asks i t = some call ∧ m.Shifts call :=
    ⟨fun ⟨m', call, hm', hrest⟩ => ⟨call, h.eq hm' ▸ hrest⟩,
      fun ⟨call, hrest⟩ => ⟨m, call, h, hrest⟩⟩
  rw [hafter, hshifts, answersLocked_iff h]
  cases hasks : d.asks i t with
  | none => exact iff_of_true ⟨hlocked, fun _ _ h => by cases h⟩ fun ⟨_, hcall, _⟩ => by cases hcall
  | some call =>
    have hother : ∀ rd, call ≠ .method 16 rd := fun rd hcall => hkeep ⟨rd, hcall ▸ hasks⟩
    have hanswers : (∀ idx rd, some call = some (.method idx rd) → m.Selects (.method idx rd) →
        m.Refuses (.method idx rd)) ↔ (m.Selects call → m.Refuses call) := by
      constructor
      · intro hall hselects
        obtain ⟨idx, rd, rfl, -⟩ := id hselects
        exact hall idx rd rfl hselects
      · intro hone idx rd hcall
        rwa [← Option.some.inj hcall]
    have hshift : (∃ call', some call = some call' ∧ m.Shifts call') ↔ m.Shifts call :=
      ⟨fun ⟨call', hcall, hs⟩ => Option.some.inj hcall ▸ hs, fun hs => ⟨call, rfl, hs⟩⟩
    rw [hanswers, hshift]
    exact MatrixPriv.locked_serve_iff hlocked hother

/-- **The lock of a matrix**: in a run without `UnlockCurrent` from a state with the lock set, the
selection stays where it is, and whoever asks for another one is answered with Locked, if and only
if no call shifts it. -/
theorem matrix_locked_iff (h : d.SelectionLocked i x y) {ts : List (Turn K)}
    (hrun : ((turns K).restrict fun e t => ¬e.Unlocks i t).Run d ts d') :
    ((turns K).restrict fun e t => ¬e.Unlocks i t).Along (fun e => e.SelectionLocked i x y)
        (fun e t => e.AnswersLocked i t) d ts ↔
      (((turns K).restrict fun e t => ¬e.Unlocks i t).restrict fun e t => ¬e.Shifts i t).Run d ts
        d' := by
  refine hrun.along_iff (I := fun _ => True) trivial h (fun _ _ _ _ => trivial) ?_
  rintro e t - ⟨m, hm, hlocked⟩ ⟨ht, hkeep⟩
  exact locked_turn_iff hm hlocked ht hkeep

end Locks

namespace Sample

/-- The matrix with its selection locked at the first cell. -/
def lockedFirst : Device .default := (call 15 [0, 1, 0, 1]).run crosspoints

theorem selectionLocked_lockedFirst : lockedFirst.SelectionLocked 3 1 1 := by
  have hgrid : crosspoints.Grid 3 (.init 2 2) := grid_create (d := start) (by decide)
  have hasks : crosspoints.asks 3 (call 15 [0, 1, 0, 1]) =
      some (.method 15 (Reader.ofBytes [0, 1, 0, 1])) := by
    simp only [call, Device.asks]
    exact if_pos (by decide)
  have hlegal : (turns .default).ok crosspoints (call 15 [0, 1, 0, 1]) := legal_call
  have hafter := grid_turn (t := call 15 [0, 1, 0, 1]) hgrid hlegal
  rw [hasks] at hafter
  exact ⟨_, hafter, show _ ∧ _ ∧ _ by decide⟩

/-- Another selection is refused. -/
theorem locked_selectLast :
    ((turns .default).restrict fun e t => ¬e.Unlocks 3 t).Along (fun e => e.SelectionLocked 3 1 1)
      (fun e t => e.AnswersLocked 3 t) lockedFirst [selectLast] := by
  have hkeep : ¬lockedFirst.Unlocks 3 selectLast := by
    rintro ⟨rd, hasks⟩
    cases asks_call hasks
  refine (matrix_locked_iff selectionLocked_lockedFirst
    (.cons ⟨legal_call, hkeep⟩ (.nil _))).2 (.cons ⟨⟨legal_call, hkeep⟩, ?_⟩ (.nil _))
  rintro ⟨m, c, -, hasks, rd, -, ⟨hother, -⟩ | ⟨hother, -⟩⟩
  · cases (asks_call hasks).symm.trans hother
  · cases (asks_call hasks).symm.trans hother

/-- `SetCurrentXYLock` moves the locked selection. -/
theorem not_locked_lockLast : lockedFirst.SelectionLocked 3 1 1 ∧
    ((turns .default).restrict fun e t => ¬e.Unlocks 3 t).Run lockedFirst [call 15 [0, 2, 0, 2]]
        ((call 15 [0, 2, 0, 2]).run lockedFirst) ∧
      ¬((turns .default).restrict fun e t => ¬e.Unlocks 3 t).Along
        (fun e => e.SelectionLocked 3 1 1) (fun e t => e.AnswersLocked 3 t) lockedFirst
          [call 15 [0, 2, 0, 2]] := by
  refine ⟨selectionLocked_lockedFirst, .cons ⟨legal_call, ?_⟩ (.nil _), ?_⟩
  · rintro ⟨rd, hasks⟩
    cases asks_call hasks
  · intro halong
    obtain ⟨m, hm, -, hcurX, -⟩ := halong.2.2
    have hgrid : gridOf ((call 15 [0, 2, 0, 2]).run lockedFirst) 3 = some ((2, 2), 2, 2) := by
      decide
    have hsel := (gridOf_eq hm).symm.trans hgrid
    injection hsel with hsel
    have htwo := (Prod.mk.inj (Prod.mk.inj hsel).1).1
    rw [hcurX] at htwo
    exact absurd htwo (by decide)

end Sample

end Aes70
