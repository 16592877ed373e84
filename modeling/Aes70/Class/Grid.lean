import Aes70.Router.Atomic
import Aes70.Router.Classification

/-!
# The matrix as a machine

What a matrix holds depends on nothing but the calls it receives: the methods of OcaMatrix with
their parameters, and the stores of the application. The grid of a matrix is described as a machine
of its own, and its bounds are proved there.

* `MatrixPriv.serve` : what a call leaves in the matrix; `matrixDispatch_serve` for the methods.
* `MatrixPriv.accesses` : the indices of the member array that a call uses.
* `matrixDispatch_congr` : no other member is read.
* `MatrixPriv.Sized` : the bounds of size and selection; `sized_serve_iff` : the calls that keep
  them.
* `MatrixPriv.selection_serve_iff` : the calls that leave a locked selection alone.
-/

namespace Aes70

open Handler

variable {K : Kconfig}

/-- What a matrix is called with. -/
inductive MatrixCall
  /-- A method, with a reader over its parameters. -/
  | method (idx : UInt16) (rd : Reader)
  /-- A store of the application. -/
  | cell (x y : UInt16) (ono : UInt32)

namespace MatrixPriv

variable {m : MatrixPriv} {idx : UInt16} {rd : Reader}

/-! ### Calls -/

/-- Read parameters, and leave the matrix alone if they are malformed. -/
def onRead {α : Type} (m : MatrixPriv) (r : Read α) (rd : Reader)
    (k : α → Reader → MatrixPriv) : MatrixPriv :=
  if (r rd).2.err then m else k (r rd).1 (r rd).2

/-- What a method leaves in the matrix. -/
def serveMethod (m : MatrixPriv) (idx : UInt16) (rd : Reader) : MatrixPriv :=
  match idx with
  | 2 => m.onRead readXY rd fun p _ =>
    if m.xyLocked then m
    else if m.xSize < p.1 ∨ m.ySize < p.2 then m
    else { m with curX := p.1, curY := p.2 }
  | 4 => m.onRead readXY rd fun p _ =>
    if p.1 < 1 ∨ m.xMax < p.1 ∨ p.2 < 1 ∨ m.yMax < p.2 then m else m.setSize p.1 p.2
  | 6 => m.onRead readXY rd fun p rd =>
    if m.yMax < p.1 ∨ m.xMax < p.2 then m
    else (readMembers (cells p.1.toNat p.2.toNat) { m with ySize := p.1, xSize := p.2 } rd).1
  | 8 => m.onRead (do return (← readXY, ← Read.u32)) rd fun p _ =>
    if m.hasCell p.1.1 p.1.2 then m.setMember (p.1.2.toNat - 1) (p.1.1.toNat - 1) p.2 else m
  | 10 => m.onRead Read.u32 rd fun v _ => { m with proxyOno := v }
  | 12 => m.onRead Read.u8 rd fun v _ => { m with portsPerRow := v }
  | 14 => m.onRead Read.u8 rd fun v _ => { m with portsPerCol := v }
  | 15 => m.onRead readXY rd fun p _ =>
    if m.xSize < p.1 ∨ m.ySize < p.2 then m
    else { m with curX := p.1, curY := p.2, xyLocked := true }
  | 16 => { m with xyLocked := false }
  | _ => m

/-- What a call leaves in the matrix. -/
def serve (m : MatrixPriv) : MatrixCall → MatrixPriv
  | .method idx rd => m.serveMethod idx rd
  | .cell x y ono => if m.hasCell x y then m.setMember (y.toNat - 1) (x.toNat - 1) ono else m

/-- The indices of the member array that a call uses, row first. -/
def accesses (m : MatrixPriv) : MatrixCall → List (ℕ × ℕ)
  | .method 5 _ => cells m.ySize.toNat m.xSize.toNat
  | .method 6 rd =>
    let p := readXY rd
    if p.2.err ∨ m.yMax < p.1.1 ∨ m.xMax < p.1.2 then [] else cells p.1.1.toNat p.1.2.toNat
  | .method 7 rd =>
    let p := readXY rd
    if ¬p.2.err ∧ m.hasCell p.1.1 p.1.2 then [(p.1.2.toNat - 1, p.1.1.toNat - 1)] else []
  | .method 8 rd =>
    let p := (do return (← readXY, ← Read.u32) : Read _) rd
    if ¬p.2.err ∧ m.hasCell p.1.1.1 p.1.1.2 then [(p.1.1.2.toNat - 1, p.1.1.1.toNat - 1)] else []
  | .cell x y _ => if m.hasCell x y then [(y.toNat - 1, x.toNat - 1)] else []
  | _ => []

end MatrixPriv

section Dispatch

variable {i : ObjRef} {idx : UInt16} {m : MatrixPriv} {c : Call K}

theorem dev_reading {α : Type} {r : Read α} {k : α → Handler K} {f : α → Reader → MatrixPriv}
    (hself : storeMatrix i m c.dev = c.dev)
    (hk : ∀ c' : Call K, c'.dev = c.dev → c'.rd = (r c.rd).2 →
      (k (r c.rd).1 c').2.dev = storeMatrix i (f (r c.rd).1 c'.rd) c.dev) :
    (reading r k c).2.dev = storeMatrix i (m.onRead r c.rd f) c.dev := by
  unfold reading MatrixPriv.onRead
  dsimp only
  split_ifs with herr
  · exact hself.symm
  · exact hk _ rfl rfl

/-- **The methods of OcaMatrix** do to the matrix what `serve` does. -/
theorem matrixDispatch_serve (hp : (c.dev.obj i).priv = .matrix m) :
    (matrixDispatch i idx c).2.dev = storeMatrix i (m.serveMethod idx c.rd) c.dev := by
  have hself : storeMatrix i m c.dev = c.dev := Device.modifyObj_eq_self (by rw [← hp])
  unfold matrixDispatch look
  dsimp only
  rw [hp]
  dsimp only
  split
  case h_2 => -- SetCurrentXY
    simp only [MatrixPriv.serveMethod]
    refine dev_reading hself fun c' hc _ => ?_
    split_ifs
    · exact hc.trans hself.symm
    · exact hc.trans hself.symm
    · rw [← hc]
      rfl
  case h_4 | h_15 => -- SetSize, SetCurrentXYLock
    simp only [MatrixPriv.serveMethod]
    refine dev_reading hself fun c' hc _ => ?_
    split_ifs
    · exact hc.trans hself.symm
    · rw [← hc]
      rfl
  case h_6 => -- SetMembers
    simp only [MatrixPriv.serveMethod, setMembers]
    refine dev_reading hself fun c' hc _ => ?_
    split_ifs
    · exact hc.trans hself.symm
    · rw [← hc]
  case h_7 => -- GetMember
    refine (dev_reading (m := m) (f := fun _ _ => m) hself fun c' hc _ => ?_).trans ?_
    · split_ifs
      · exact hc.trans hself.symm
      · exact hc.trans hself.symm
    · rw [MatrixPriv.onRead, ite_self]
      rfl
  case h_8 => -- SetMember
    simp only [MatrixPriv.serveMethod]
    refine dev_reading hself fun c' hc _ => ?_
    split_ifs
    · rw [← hc]
      rfl
    · exact hc.trans hself.symm
  case h_10 | h_12 | h_14 =>
    simp only [MatrixPriv.serveMethod]
    refine dev_reading hself fun c' hc _ => ?_
    rw [← hc]
    rfl
  case h_16 => rfl
  case h_19 =>
    have hkeep : m.serveMethod idx c.rd = m := by
      unfold MatrixPriv.serveMethod
      split <;> first | rfl | contradiction
    rw [hkeep]
    exact hself.symm
  all_goals exact hself.symm

theorem status_reading_ne {α : Type} {r : Read α} {k : α → Handler K} {st : Status}
    (hbad : st ≠ .badFormat) (hk : ∀ a c', (k a c').1 ≠ st) : (reading r k c).1 ≠ st := by
  unfold reading
  dsimp only
  split_ifs
  · exact hbad.symm
  · exact hk _ _

/-- Only `SetCurrentXY` looks at the lock. -/
theorem matrixDispatch_locked_iff (hp : (c.dev.obj i).priv = .matrix m) :
    (matrixDispatch i idx c).1 = .locked ↔
      idx = 2 ∧ (readXY c.rd).2.err = false ∧ m.xyLocked = true := by
  unfold matrixDispatch look
  dsimp only
  rw [hp]
  dsimp only
  split
  case h_2 =>
    unfold reading
    dsimp only
    split_ifs with herr hlocked
    · simp [herr]
    · simpa [ret, hlocked] using herr
    · simp [ret, hlocked]
    · simp [store, hlocked]
  case h_6 =>
    refine iff_of_false (status_reading_ne (by decide) fun p c' => ?_) (by simp)
    dsimp only
    split_ifs
    · exact Status.noConfusion
    · dsimp only
      split_ifs <;> exact Status.noConfusion
  all_goals refine iff_of_false ?_ (by simp_all)
  case h_4 | h_7 | h_8 | h_15 =>
    refine status_reading_ne (by decide) fun p c' => ?_
    split_ifs <;> exact Status.noConfusion
  case h_10 | h_12 | h_14 => exact status_reading_ne (by decide) fun p c' => Status.noConfusion
  all_goals exact Status.noConfusion

end Dispatch

namespace MatrixPriv

variable {m : MatrixPriv} {call : MatrixCall} {rd : Reader}

/-! ### The members -/

theorem readMembers_cells (rows cols : ℕ) (m : MatrixPriv) (rd : Reader) :
    (readMembers (cells rows cols) m rd).1 = m.withMembers rows cols rd.word := by
  rw [readMembers_fst, storeCells_cells]

theorem mem_cells {rows cols y x : ℕ} : (y, x) ∈ cells rows cols ↔ y < rows ∧ x < cols := by
  simp [cells]

/-- The parameters of `SetMembers` name a size within the bounds. -/
def Allows (m : MatrixPriv) (rd : Reader) : Prop :=
  (readXY rd).2.err = false ∧ (readXY rd).1.1 ≤ m.yMax ∧ (readXY rd).1.2 ≤ m.xMax

theorem serve_setMembers (h : m.Allows rd) : m.serve (.method 6 rd) =
    { m with ySize := (readXY rd).1.1, xSize := (readXY rd).1.2 }.withMembers
      (readXY rd).1.1.toNat (readXY rd).1.2.toNat (readXY rd).2.word := by
  obtain ⟨herr, hy, hx⟩ := h
  have hin : ¬(m.yMax < (readXY rd).1.1 ∨ m.xMax < (readXY rd).1.2) := by
    rintro (h | h)
    · exact absurd hy (UInt16.not_le.2 h)
    · exact absurd hx (UInt16.not_le.2 h)
  simp only [serve, serveMethod, onRead, herr, Bool.false_eq_true, if_false, if_neg hin]
  exact readMembers_cells _ _ _ _

/-- What a call can do, and when. -/
inductive Move (m : MatrixPriv) : MatrixCall → MatrixPriv → Prop
  | same (call : MatrixCall) : Move m call m
  | select {rd : Reader} (hfree : m.xyLocked = false)
    (hin : (readXY rd).1.1 ≤ m.xSize ∧ (readXY rd).1.2 ≤ m.ySize) :
    Move m (.method 2 rd) { m with curX := (readXY rd).1.1, curY := (readXY rd).1.2 }
  | resize {rd : Reader} (herr : (readXY rd).2.err = false)
    (hx : 1 ≤ (readXY rd).1.1 ∧ (readXY rd).1.1 ≤ m.xMax)
    (hy : 1 ≤ (readXY rd).1.2 ∧ (readXY rd).1.2 ≤ m.yMax) :
    Move m (.method 4 rd) (m.setSize (readXY rd).1.1 (readXY rd).1.2)
  | refill {rd : Reader} (hin : m.Allows rd) (w : ℕ → UInt32) :
    Move m (.method 6 rd) ({ m with ySize := (readXY rd).1.1, xSize := (readXY rd).1.2 }.withMembers
      (readXY rd).1.1.toNat (readXY rd).1.2.toNat w)
  | store {call : MatrixCall} {y x : ℕ} (hcell : (y, x) ∈ m.accesses call) (ono : UInt32) :
    Move m call (m.setMember y x ono)
  | settings (call : MatrixCall) (proxyOno : UInt32) (portsPerRow portsPerCol : UInt8) :
    Move m call { m with proxyOno, portsPerRow, portsPerCol }
  | lock {rd : Reader} (herr : (readXY rd).2.err = false)
    (hin : (readXY rd).1.1 ≤ m.xSize ∧ (readXY rd).1.2 ≤ m.ySize) :
    Move m (.method 15 rd)
      { m with curX := (readXY rd).1.1, curY := (readXY rd).1.2, xyLocked := true }
  | unlock (rd : Reader) : Move m (.method 16 rd) { m with xyLocked := false }

theorem move_onRead {α : Type} {r : Read α} {k : α → Reader → MatrixPriv}
    (h : (r rd).2.err = false → m.Move call (k (r rd).1 (r rd).2)) :
    m.Move call (m.onRead r rd k) := by
  unfold onRead
  split_ifs with herr
  · exact .same _
  · exact h (by simpa using herr)

theorem within_of_not_exceeds {a b c d : UInt16} (h : ¬(a < b ∨ c < d)) : b ≤ a ∧ d ≤ c := by
  rw [not_or, UInt16.not_lt, UInt16.not_lt] at h
  exact h

/-- **What a call does.** -/
theorem move_serve (m : MatrixPriv) (call : MatrixCall) : m.Move call (m.serve call) := by
  cases call with
  | cell col row ono =>
    simp only [serve]
    split_ifs with hcell
    · refine .store ?_ ono
      simp [accesses, hcell]
    · exact .same _
  | method idx rd =>
    simp only [serve]
    unfold serveMethod
    split
    case h_1 => -- SetCurrentXY
      refine move_onRead fun _ => ?_
      split_ifs with hlocked hin
      · exact .same _
      · exact .same _
      · exact .select (by simpa using hlocked) (within_of_not_exceeds hin)
    case h_2 => -- SetSize
      refine move_onRead fun herr => ?_
      split_ifs with hin
      · exact .same _
      · simp only [not_or, UInt16.not_lt] at hin
        exact .resize herr ⟨hin.1, hin.2.1⟩ hin.2.2
    case h_3 => -- SetMembers
      refine move_onRead fun herr => ?_
      split_ifs with hin
      · exact .same _
      · rw [readMembers_cells]
        exact .refill ⟨herr, within_of_not_exceeds hin⟩ _
    case h_4 => -- SetMember
      refine move_onRead fun herr => ?_
      split_ifs with hcell
      · refine .store ?_ _
        simp only [accesses, herr, hcell]
        simp
      · exact .same _
    case h_5 | h_6 | h_7 => exact move_onRead fun _ => .settings _ _ _ _
    case h_8 => -- SetCurrentXYLock
      refine move_onRead fun herr => ?_
      split_ifs with hin
      · exact .same _
      · exact .lock herr (within_of_not_exceeds hin)
    case h_9 => exact .unlock rd
    case h_10 => exact .same _

/-- A stored member is the only one that changes. -/
theorem members_setMember {r k : ℕ} {ono : UInt32} {y x : Fin 16} (h : (y.val, x.val) ≠ (r, k)) :
    (m.setMember r k ono).members y x = m.members y x := by
  rw [setMember_eq]
  exact if_neg fun heq => h (Prod.ext heq.1 heq.2)

/-- **Members that a call does not access** keep their number. -/
theorem members_serve {y x : Fin 16} (h : (y.val, x.val) ∉ m.accesses call) :
    (m.serve call).members y x = m.members y x := by
  have hmove := move_serve m call
  generalize m.serve call = m' at hmove ⊢
  cases hmove with
  | same | select | resize | settings | lock | unlock => rfl
  | refill hin w =>
    refine if_neg fun hcell => h ?_
    simp only [accesses]
    rw [if_neg, mem_cells]
    · exact hcell
    · simpa [Allows] using hin
  | store hcell ono => exact members_setMember fun heq => h (heq ▸ hcell)

end MatrixPriv

section Reads

variable {i : ObjRef} {idx : UInt16} {m : MatrixPriv} {c : Call K} {d' : Device K}

/-- What a handler returns and writes, without the device. -/
def Handler.output (r : Status × Call K) : Status × Reader × Writer × UInt8 :=
  (r.1, r.2.rd, r.2.wr, r.2.pc)

theorem output_reading {α : Type} {r : Read α} {k k' : α → Handler K}
    (h : (r c.rd).2.err = false → output (k' (r c.rd).1 { c with dev := d', rd := (r c.rd).2 }) =
      output (k (r c.rd).1 { c with rd := (r c.rd).2 })) :
    output (reading r k' { c with dev := d' }) = output (reading r k c) := by
  unfold reading
  dsimp only
  split_ifs with herr
  · rfl
  · exact h (by simpa using herr)

theorem readMembers_snd (cs : List (ℕ × ℕ)) (m m' : MatrixPriv) (rd : Reader) :
    (readMembers cs m' rd).2 = (readMembers cs m rd).2 := by
  induction cs generalizing m m' rd with
  | nil => rfl
  | cons c cs ih => exact ih _ _ _

/-- **Members that a method does not access** have no part in what it returns. -/
theorem matrixDispatch_congr (hi : i < c.dev.objects.length) (hp : (c.dev.obj i).priv = .matrix m)
    {f : Fin 16 → Fin 16 → UInt32} (hf : ∀ y x : Fin 16,
      (y.val, x.val) ∈ m.accesses (.method idx c.rd) → f y x = m.members y x) :
    output (matrixDispatch i idx
        { c with dev := storeMatrix i { m with members := f } c.dev }) =
      output (matrixDispatch i idx c) := by
  have hp' : ((storeMatrix i { m with members := f } c.dev).obj i).priv =
      .matrix { m with members := f } := by
    rw [storeMatrix, Device.obj_modifyObj_self hi]
  have hmember {y x : ℕ} (hcell : (y, x) ∈ m.accesses (.method idx c.rd)) :
      MatrixPriv.member { m with members := f } y x = m.member y x := by
    unfold MatrixPriv.member
    split_ifs with hlt
    · exact hf ⟨y, hlt.1⟩ ⟨x, hlt.2⟩ hcell
    · rfl
  unfold matrixDispatch look
  dsimp only
  rw [hp, hp']
  dsimp only
  split
  case h_5 => -- GetMembers
    have hcells : (cells m.ySize.toNat m.xSize.toNat).map (fun p =>
        Field.u32 (MatrixPriv.member { m with members := f } p.1 p.2)) =
          (cells m.ySize.toNat m.xSize.toNat).map fun p => .u32 (m.member p.1 p.2) :=
      List.map_congr_left fun p hcell => congrArg Field.u32 (hmember hcell)
    rw [hcells]
    rfl
  case h_6 => -- SetMembers
    refine output_reading fun _ => ?_
    dsimp only
    split_ifs
    · rfl
    -- what is read does not depend on what is stored
    · have hsnd := fun m' => readMembers_snd (cells (readXY c.rd).1.1.toNat (readXY c.rd).1.2.toNat)
        { m with ySize := (readXY c.rd).1.1, xSize := (readXY c.rd).1.2 } m' (readXY c.rd).2
      simp only [output, hsnd]
  case h_7 => -- GetMember
    refine output_reading fun herr => ?_
    have hsame : MatrixPriv.hasCell { m with members := f } (readXY c.rd).1.1 (readXY c.rd).1.2 =
        m.hasCell (readXY c.rd).1.1 (readXY c.rd).1.2 := rfl
    rw [hsame]
    split_ifs with hcell
    · rw [hmember]
      · rfl
      · simp [MatrixPriv.accesses, herr, hcell]
    · rfl
  case h_2 | h_4 | h_15 =>
    refine output_reading fun _ => ?_
    split_ifs <;> rfl
  case h_8 => -- SetMember
    refine output_reading fun _ => ?_
    have hsame (x y : UInt16) : MatrixPriv.hasCell { m with members := f } x y =
        m.hasCell x y := rfl
    rw [hsame]
    split_ifs <;> rfl
  case h_10 | h_12 | h_14 => exact output_reading fun _ => rfl
  all_goals rfl

end Reads

namespace MatrixPriv

variable {m : MatrixPriv} {call : MatrixCall} {rd : Reader}

/-! ### Bounds -/

/-- The bounds of the size are those of the member array. -/
structure Fits (m : MatrixPriv) : Prop where
  xMax : m.xMax = 16
  yMax : m.yMax = 16
  x : m.xSize ≤ 16
  y : m.ySize ≤ 16

/-- The size is within its bounds, and the selection within the size. -/
structure Sized (m : MatrixPriv) : Prop where
  x : 1 ≤ m.xSize ∧ m.xSize ≤ m.xMax
  y : 1 ≤ m.ySize ∧ m.ySize ≤ m.yMax
  curX : m.curX ≤ m.xSize
  curY : m.curY ≤ m.ySize

/-- `SetMembers` with a size that is let through and has no cell, or does not hold the selection. -/
def Shrinks (m : MatrixPriv) (call : MatrixCall) : Prop :=
  ∃ rd, call = .method 6 rd ∧ m.Allows rd ∧
    ¬((1 ≤ (readXY rd).1.1 ∧ m.curY ≤ (readXY rd).1.1) ∧
      1 ≤ (readXY rd).1.2 ∧ m.curX ≤ (readXY rd).1.2)

theorem fits_init (x y : UInt16) : (init x y).Fits := by
  have hmin (x : UInt16) : min x 16 ≤ 16 := by
    change (if x ≤ 16 then x else 16) ≤ 16
    split_ifs with h
    · exact h
    · exact UInt16.le_refl 16
  exact ⟨rfl, rfl, hmin x, hmin y⟩

theorem sized_init {x y : UInt16} (hx : 1 ≤ x ∧ x ≤ 16) (hy : 1 ≤ y ∧ y ≤ 16) :
    (init x y).Sized := by
  have hmin {x : UInt16} (h : x ≤ 16) : min x 16 = x := if_pos h
  refine ⟨?_, ?_, ?_, ?_⟩ <;> simp [init, hmin, hx, hy]

/-- The bounds never change. -/
theorem fits_serve (h : m.Fits) (call : MatrixCall) : (m.serve call).Fits := by
  have hmove := move_serve m call
  generalize m.serve call = m' at hmove ⊢
  obtain ⟨hxMax, hyMax, hx, hy⟩ := h
  cases hmove with
  | same | select | settings | lock | unlock => exact ⟨hxMax, hyMax, hx, hy⟩
  | resize _ hx' hy' => exact ⟨hxMax, hyMax, hxMax ▸ hx'.2, hyMax ▸ hy'.2⟩
  | refill hin w => exact ⟨hxMax, hyMax, hxMax ▸ hin.2.2, hyMax ▸ hin.2.1⟩
  | store hcell ono =>
    rw [setMember_eq]
    exact ⟨hxMax, hyMax, hx, hy⟩

theorem hasCell_lt (h : m.Fits) {x y : UInt16} (hcell : m.hasCell x y = true) :
    y.toNat - 1 < 16 ∧ x.toNat - 1 < 16 := by
  have hx := UInt16.le_iff_toNat_le.1 h.x
  have hy := UInt16.le_iff_toNat_le.1 h.y
  simp only [hasCell, Bool.not_eq_true', Bool.or_eq_false_iff, decide_eq_false_iff_not,
    UInt16.not_lt, UInt16.le_iff_toNat_le] at hcell
  obtain ⟨⟨⟨-, hxcell⟩, -⟩, hycell⟩ := hcell
  have h16 : (16 : UInt16).toNat = 16 := rfl
  omega

/-- **Every access is in bounds.** -/
theorem accesses_lt (h : m.Fits) {y x : ℕ} (hcell : (y, x) ∈ m.accesses call) :
    y < 16 ∧ x < 16 := by
  have h16 : (16 : UInt16).toNat = 16 := rfl
  have hwithin {rows cols : UInt16} (hr : rows ≤ 16) (hc : cols ≤ 16)
      (hmem : (y, x) ∈ cells rows.toNat cols.toNat) : y < 16 ∧ x < 16 := by
    obtain ⟨hy, hx⟩ := mem_cells.1 hmem
    rw [UInt16.le_iff_toNat_le] at hr hc
    omega
  have hone {p : Prop} [Decidable p] {row col : UInt16} (hp : p → m.hasCell col row = true)
      (hmem : (y, x) ∈ if p then [(row.toNat - 1, col.toNat - 1)] else []) : y < 16 ∧ x < 16 := by
    split_ifs at hmem with hif
    · obtain ⟨rfl, rfl⟩ := Prod.mk.inj (List.mem_singleton.1 hmem)
      exact hasCell_lt h (hp hif)
    · cases hmem
  unfold accesses at hcell
  split at hcell
  case h_1 => exact hwithin h.y h.x hcell
  case h_2 =>
    dsimp only at hcell
    split_ifs at hcell with hin
    · cases hcell
    · simp only [not_or, UInt16.not_lt] at hin
      exact hwithin (h.yMax ▸ hin.2.1) (h.xMax ▸ hin.2.2) hcell
  case h_3 | h_4 => exact hone (fun hp => hp.2) hcell
  case h_5 => exact hone id hcell
  case h_6 => cases hcell

theorem sized_setSize {x y : UInt16} (hx : 1 ≤ x ∧ x ≤ m.xMax)
    (hy : 1 ≤ y ∧ y ≤ m.yMax) : (m.setSize x y).Sized := by
  have hsel {a b : UInt16} : (if b < a then 0 else a) ≤ b := by
    split_ifs with hab
    · exact UInt16.zero_le
    · exact UInt16.not_lt.1 hab
  exact ⟨hx, hy, hsel, hsel⟩

/-- **The size and the selection stay in bounds** exactly if the call does not shrink the matrix. -/
theorem sized_serve_iff (h : m.Sized) : (m.serve call).Sized ↔ ¬m.Shrinks call := by
  by_cases hrefill : ∃ rd, call = .method 6 rd ∧ m.Allows rd
  · obtain ⟨rd, rfl, hin⟩ := hrefill
    rw [serve_setMembers hin]
    constructor
    · rintro ⟨hx, hy, hcurX, hcurY⟩ ⟨rd', heq, -, hnot⟩
      obtain rfl : rd = rd' := by
        injection heq
      exact hnot ⟨⟨hy.1, hcurY⟩, hx.1, hcurX⟩
    · intro hnot
      have hholds := not_not.1 fun hsmall => hnot ⟨rd, rfl, hin, hsmall⟩
      exact ⟨⟨hholds.2.1, hin.2.2⟩, ⟨hholds.1.1, hin.2.1⟩, hholds.2.2, hholds.1.2⟩
  · refine iff_of_true ?_ fun ⟨rd, hcall, hin, _⟩ => hrefill ⟨rd, hcall, hin⟩
    have hmove := move_serve m call
    generalize m.serve call = m' at hmove ⊢
    cases hmove with
    | same | settings | unlock => exact ⟨h.x, h.y, h.curX, h.curY⟩
    | select _ hin | lock _ hin => exact ⟨h.x, h.y, hin.1, hin.2⟩
    | resize _ hx hy => exact sized_setSize hx hy
    | refill hin w => exact absurd ⟨_, rfl, hin⟩ hrefill
    | store hcell ono =>
      rw [setMember_eq]
      exact ⟨h.x, h.y, h.curX, h.curY⟩

/-! ### The lock of the selection -/

/-- A call that moves the selection past the lock: `SetCurrentXYLock` with another position, or
`SetSize` with a size that does not hold the selection. -/
def Shifts (m : MatrixPriv) (call : MatrixCall) : Prop :=
  ∃ rd, (readXY rd).2.err = false ∧
    (call = .method 15 rd ∧ (readXY rd).1 ≠ (m.curX, m.curY) ∨
      call = .method 4 rd ∧ (1 ≤ (readXY rd).1.1 ∧ (readXY rd).1.1 ≤ m.xMax) ∧
        (1 ≤ (readXY rd).1.2 ∧ (readXY rd).1.2 ≤ m.yMax) ∧
          ((readXY rd).1.1 < m.curX ∨ (readXY rd).1.2 < m.curY))

/-- A call that asks for another selection. -/
def Selects (m : MatrixPriv) (call : MatrixCall) : Prop :=
  ∃ idx rd, call = .method idx rd ∧ (idx = 2 ∨ idx = 15) ∧ (readXY rd).2.err = false ∧
    (readXY rd).1 ≠ (m.curX, m.curY)

/-- A call that the lock refuses. -/
def Refuses (m : MatrixPriv) (call : MatrixCall) : Prop :=
  ∃ rd, call = .method 2 rd ∧ (readXY rd).2.err = false ∧ m.xyLocked = true

/-- The selection is locked at this position. -/
def LockedAt (m : MatrixPriv) (x y : UInt16) : Prop :=
  m.xyLocked = true ∧ m.curX = x ∧ m.curY = y

theorem setSize_shifts {x y : UInt16} (h : x < m.curX ∨ y < m.curY) :
    (m.setSize x y).curX ≠ m.curX ∨ (m.setSize x y).curY ≠ m.curY := by
  have hsel {a b : UInt16} (hlt : b < a) : (if b < a then 0 else a) ≠ a := by
    rw [if_pos hlt]
    rintro rfl
    exact absurd hlt UInt16.not_lt_zero
  exact h.imp (fun hx => hsel hx) fun hy => hsel hy

theorem serve_setSize (herr : (readXY rd).2.err = false)
    (hx : 1 ≤ (readXY rd).1.1 ∧ (readXY rd).1.1 ≤ m.xMax)
    (hy : 1 ≤ (readXY rd).1.2 ∧ (readXY rd).1.2 ≤ m.yMax) :
    m.serve (.method 4 rd) = m.setSize (readXY rd).1.1 (readXY rd).1.2 := by
  have hin : ¬((readXY rd).1.1 < 1 ∨ m.xMax < (readXY rd).1.1 ∨ (readXY rd).1.2 < 1 ∨
      m.yMax < (readXY rd).1.2) := by
    simp only [not_or, UInt16.not_lt]
    exact ⟨hx.1, hx.2, hy⟩
  simp only [serve, serveMethod, onRead, herr, Bool.false_eq_true, if_false, if_neg hin]

/-- **A locked selection stays**, and whoever asks for another one is refused, exactly if the call
does not shift it. -/
theorem locked_serve_iff {x y : UInt16} (h : m.LockedAt x y)
    (hkeep : ∀ rd, call ≠ .method 16 rd) :
    (m.serve call).LockedAt x y ∧ (m.Selects call → m.Refuses call) ↔ ¬m.Shifts call := by
  obtain ⟨hlocked, rfl, rfl⟩ := h
  constructor
  · rintro ⟨⟨-, hcurX, hcurY⟩, hrefuse⟩ ⟨rd, herr, ⟨rfl, hother⟩ | ⟨rfl, hx, hy, hsmall⟩⟩
    -- the lock method asks for another selection and does not refuse
    · obtain ⟨rd', heq, -⟩ := hrefuse ⟨15, rd, rfl, .inr rfl, herr, hother⟩
      cases heq
    -- the new size resets a coordinate
    · rw [serve_setSize herr hx hy] at hcurX hcurY
      exact (setSize_shifts hsmall).elim (fun hne => hne hcurX) fun hne => hne hcurY
  · intro hstay
    refine ⟨?_, ?_⟩
    -- of the moves only a lock and a new size touch a locked selection
    · have hmove := move_serve m call
      generalize m.serve call = m' at hmove ⊢
      cases hmove with
      | same | settings | refill => exact ⟨hlocked, rfl, rfl⟩
      | select hfree => exact absurd (hlocked.symm.trans hfree) (by decide)
      | resize herr hx hy =>
        have hsel {a b : UInt16} (hle : ¬b < a) : (if b < a then 0 else a) = a := if_neg hle
        refine ⟨hlocked, hsel ?_, hsel ?_⟩
        · intro hlt
          exact hstay ⟨_, herr, .inr ⟨rfl, hx, hy, .inl hlt⟩⟩
        · intro hlt
          exact hstay ⟨_, herr, .inr ⟨rfl, hx, hy, .inr hlt⟩⟩
      | store hcell ono =>
        rw [setMember_eq]
        exact ⟨hlocked, rfl, rfl⟩
      | lock herr hin =>
        have hsame := not_not.1 fun hother => hstay ⟨_, herr, .inl ⟨rfl, hother⟩⟩
        exact ⟨rfl, congrArg Prod.fst hsame, congrArg Prod.snd hsame⟩
      | unlock rd => exact absurd rfl (hkeep rd)
    · rintro ⟨idx, rd, rfl, rfl | rfl, herr, hother⟩
      · exact ⟨rd, rfl, herr, hlocked⟩
      · exact absurd ⟨rd, herr, .inl ⟨rfl, hother⟩⟩ hstay

end MatrixPriv

end Aes70
