import Aes70.Class.Recall
import Aes70.Router.Outcome
import Aes70.Server.Machine

/-!
# Failed commands

A command that is not answered with OK should leave the device as it found it. Two methods store
before they have read all their parameters, `SetMembers` of OcaMatrix and `ApplyParameterData` of
OcaBlock; a parameter list that ends too early leaves what was stored so far.

* `MatrixPriv.withMembers` : the grid that a list of numbers describes.
* `TornMembers`, `TornRecall` : the calls of the two methods that fail after a change.
* `dispatch_atomic_iff` : a failed call leaves no trace exactly when it is none of these.
-/

namespace Aes70

open Handler

variable {K : Kconfig}

/-! ### Lists of numbers -/

/-- The `k`-th number a reader is about to deliver, 0 beyond the end of its area. -/
def Reader.word (rd : Reader) (k : ℕ) : UInt32 :=
  if rd.err || decide (rd.remaining < 4 * (k + 1)) then 0
  else rd32 ((rd.p.add (rd.off + 4 * k)).read 4)

theorem u32_fst (rd : Reader) : (Read.u32 rd).1 = rd.word 0 := by
  unfold Read.u32 Read.fixed Reader.word
  split_ifs <;> rfl

theorem u32_word (rd : Reader) (k : ℕ) : (Read.u32 rd).2.word k = rd.word (k + 1) := by
  unfold Read.u32 Read.fixed
  by_cases h : (rd.err || decide (rd.remaining < 4)) = true
  · rw [if_pos h]
    have hlt : (rd.err || decide (rd.remaining < 4 * (k + 1 + 1))) = true := by
      simp only [Bool.or_eq_true, decide_eq_true_eq] at h ⊢
      exact h.imp_right fun h => by omega
    simp [Reader.word, Reader.fail, hlt]
  · rw [if_neg h]
    simp only [Bool.or_eq_true, decide_eq_true_eq, not_or, Bool.not_eq_true] at h
    have hrem : rd.remaining - 4 < 4 * (k + 1) ↔ rd.remaining < 4 * (k + 1 + 1) := by omega
    have hoff : rd.off + 4 + 4 * k = rd.off + 4 * (k + 1) := by ring
    simp only [Reader.word, Reader.remaining_advance, hrem]
    simp only [Reader.advance, hoff]

theorem u32_err (rd : Reader) (n : ℕ) :
    ((Read.u32 rd).2.err || decide ((Read.u32 rd).2.remaining < 4 * n)) =
      (rd.err || decide (rd.remaining < 4 * (n + 1))) := by
  unfold Read.u32 Read.fixed
  by_cases h : (rd.err || decide (rd.remaining < 4)) = true
  · rw [if_pos h]
    have hlt : (rd.err || decide (rd.remaining < 4 * (n + 1))) = true := by
      simp only [Bool.or_eq_true, decide_eq_true_eq] at h ⊢
      exact h.imp_right fun h => by omega
    simp [Reader.fail, hlt]
  · rw [if_neg h]
    simp only [Bool.or_eq_true, decide_eq_true_eq, not_or, Bool.not_eq_true] at h
    have hrem : rd.remaining - 4 < 4 * n ↔ rd.remaining < 4 * (n + 1) := by omega
    simp only [Reader.remaining_advance, hrem]
    rfl

/-! ### SetMembers -/

namespace MatrixPriv

theorem setMember_eq (m : MatrixPriv) (y x : ℕ) (v : UInt32) :
    m.setMember y x v = { m with
      members := fun y' x' => if y'.val = y ∧ x'.val = x then v else m.members y' x' } := by
  have hext {f g : Fin 16 → Fin 16 → UInt32} (h : ∀ y' x', f y' x' = g y' x') :
      { m with members := f } = { m with members := g } := by rw [funext₂ h]
  unfold setMember
  split_ifs with h
  · refine hext fun y' x' => ?_
    by_cases hy : y' = ⟨y, h.1⟩
    · subst hy
      by_cases hx : x' = ⟨x, h.2⟩
      · simp [hx]
      · simp [hx, Fin.ext_iff.not.mp hx]
    · simp [hy, Fin.ext_iff.not.mp hy]
  · refine hext (f := m.members) fun y' x' => ?_
    have hne : ¬(y'.val = y ∧ x'.val = x) := fun hyx => h ⟨hyx.1 ▸ y'.isLt, hyx.2 ▸ x'.isLt⟩
    rw [if_neg hne]

/-- The matrix with `rows` rows and `cols` columns whose cells hold the numbers `w`, row by row. -/
def withMembers (m : MatrixPriv) (rows cols : ℕ) (w : ℕ → UInt32) : MatrixPriv :=
  { m with members := fun y x => if y.val < rows ∧ x.val < cols then w (y * cols + x)
      else m.members y x }

/-- Store the numbers `w` into a list of cells. -/
def storeCells : List (ℕ × ℕ) → (ℕ → UInt32) → MatrixPriv → MatrixPriv
  | [], _, m => m
  | (y, x) :: cs, w, m => storeCells cs (fun k => w (k + 1)) (m.setMember y x (w 0))

theorem storeCells_append (cs cs' : List (ℕ × ℕ)) (w : ℕ → UInt32) (m : MatrixPriv) :
    storeCells (cs ++ cs') w m =
      storeCells cs' (fun k => w (cs.length + k)) (storeCells cs w m) := by
  induction cs generalizing w m with
  | nil => simp [storeCells]
  | cons c cs ih => simp [storeCells, ih, Nat.add_right_comm]

theorem storeCells_row (y n : ℕ) (w : ℕ → UInt32) (m : MatrixPriv) :
    storeCells ((List.range n).map fun x => (y, x)) w m = { m with
      members := fun y' x' => if y'.val = y ∧ x'.val < n then w x' else m.members y' x' } := by
  induction n with
  | zero => simp [storeCells]
  | succ n ih =>
    rw [List.range_succ, List.map_append, storeCells_append, ih]
    simp only [List.map_cons, List.map_nil, storeCells, setMember_eq, List.length_map,
      List.length_range, Nat.add_zero]
    congr 1
    funext y' x'
    by_cases hx : x'.val = n
    · simp [hx]
    · have hlt : x'.val < n + 1 ↔ x'.val < n := by omega
      simp [hx, hlt]

theorem storeCells_cells (rows cols : ℕ) (w : ℕ → UInt32) (m : MatrixPriv) :
    storeCells (cells rows cols) w m = m.withMembers rows cols w := by
  induction rows with
  | zero => simp [cells, storeCells, withMembers]
  | succ rows ih =>
    have hsplit : cells (rows + 1) cols = cells rows cols ++
        (List.range cols).map fun x => (rows, x) := by
      simp [cells, List.range_succ]
    have hlen : (cells rows cols).length = rows * cols := by simp [cells]
    rw [hsplit, storeCells_append, ih, hlen, storeCells_row, withMembers, withMembers]
    congr 1
    funext y' x'
    by_cases hy : y'.val = rows
    · simp [hy]
    · have hlt : y'.val < rows + 1 ↔ y'.val < rows := by omega
      simp [hy, hlt]

end MatrixPriv

theorem readMembers_fst (cs : List (ℕ × ℕ)) (m : MatrixPriv) (rd : Reader) :
    (readMembers cs m rd).1 = MatrixPriv.storeCells cs rd.word m := by
  induction cs generalizing m rd with
  | nil => rfl
  | cons c cs ih =>
    obtain ⟨y, x⟩ := c
    have hword : (Read.u32 rd).2.word = fun k => rd.word (k + 1) := funext (u32_word rd)
    change (readMembers cs (m.setMember y x (Read.u32 rd).1) (Read.u32 rd).2).1 = _
    rw [ih, u32_fst, hword]
    rfl

theorem readMembers_err (cs : List (ℕ × ℕ)) (m : MatrixPriv) (rd : Reader) :
    (readMembers cs m rd).2.err = (rd.err || decide (rd.remaining < 4 * cs.length)) := by
  induction cs generalizing m rd with
  | nil =>
    change rd.err = _
    simp
  | cons c cs ih =>
    obtain ⟨y, x⟩ := c
    change (readMembers cs (m.setMember y x (Read.u32 rd).1) (Read.u32 rd).2).2.err = _
    rw [ih, u32_err, List.length_cons]

/-- The `k`-th number of the cell list in a parameter area of `len` bytes, 0 beyond its end. -/
def cellNumber (p : Ptr) (len k : ℕ) : UInt32 :=
  if 8 + 4 * k ≤ len then rd32 ((p.add (4 + 4 * k)).read 4) else 0

/-- The numbers of rows and columns at the start of the parameters of `SetMembers`. -/
def sizeParams (p : Ptr) : UInt16 × UInt16 := (rd16 (p.read 2), rd16 ((p.add 2).read 2))

theorem readXY_short {p : Ptr} {len : ℕ} (h : len < 4) :
    (readXY (Reader.init p len)).2.err = true := by
  have hrem : (Reader.init p len).remaining = len := by simp [Reader.remaining_eq, Reader.init]
  change (Read.u16 (Read.u16 (Reader.init p len)).2).2.err = true
  by_cases h2 : len < 2
  · have hfst : Read.u16 (Reader.init p len) = (0, (Reader.init p len).fail) :=
      if_pos (by simp [hrem, h2])
    rw [hfst]
    rfl
  · have hfst : Read.u16 (Reader.init p len) = (rd16 (p.read 2), (Reader.init p len).advance 2) :=
      (Read.fixed_of_le rfl (by omega)).trans (by simp [Reader.peek, Reader.init])
    have hsnd : ((Reader.init p len).advance 2).remaining < 2 := by
      rw [Reader.remaining_advance]
      omega
    have herr : Read.u16 ((Reader.init p len).advance 2) =
        (0, ((Reader.init p len).advance 2).fail) :=
      if_pos (by rw [decide_eq_true hsnd, Bool.or_true])
    rw [hfst, herr]
    rfl

theorem readXY_of_le {p : Ptr} {len : ℕ} (h : 4 ≤ len) :
    readXY (Reader.init p len) = (sizeParams p, ⟨p, len, 4, false, 4⟩) := by
  have hrem : (Reader.init p len).remaining = len := by simp [Reader.remaining_eq, Reader.init]
  have hfst : Read.u16 (Reader.init p len) = (rd16 (p.read 2), (Reader.init p len).advance 2) :=
    (Read.fixed_of_le rfl (by omega)).trans (by simp [Reader.peek, Reader.init])
  have hsnd : Read.u16 ((Reader.init p len).advance 2) =
      (rd16 ((p.add 2).read 2), ((Reader.init p len).advance 2).advance 2) :=
    Read.fixed_of_le rfl (by rw [Reader.remaining_advance]; omega)
  change (((Read.u16 (Reader.init p len)).1, (Read.u16 (Read.u16 (Reader.init p len)).2).1),
    (Read.u16 (Read.u16 (Reader.init p len)).2).2) = _
  rw [hfst, hsnd]
  rfl

/-- A size in the parameters of `SetMembers` that the matrix allows. -/
def MatrixPriv.sizeOk (m : MatrixPriv) (p : Ptr) (len : ℕ) : Prop :=
  4 ≤ len ∧ (sizeParams p).1 ≤ m.yMax ∧ (sizeParams p).2 ≤ m.xMax

/-- The parameters of `SetMembers` end before the last number announced. -/
def cellsTruncated (p : Ptr) (len : ℕ) : Prop :=
  len < 4 + 4 * ((sizeParams p).1.toNat * (sizeParams p).2.toNat)

instance (p : Ptr) (len : ℕ) : Decidable (cellsTruncated p len) :=
  inferInstanceAs (Decidable (_ < _))

/-- The matrix that the parameters of `SetMembers` describe; missing numbers count as 0. -/
def MatrixPriv.described (m : MatrixPriv) (p : Ptr) (len : ℕ) : MatrixPriv :=
  { m with ySize := (sizeParams p).1, xSize := (sizeParams p).2 }.withMembers
    (sizeParams p).1.toNat (sizeParams p).2.toNat (cellNumber p len)

section SetMembers

variable {i : ObjRef} {m : MatrixPriv} {c : Call K} {p : Ptr} {len : ℕ}

theorem setMembers_refused (hc : c.rd = Reader.init p len) (h : ¬m.sizeOk p len) :
    (setMembers i m c).1 ≠ .ok ∧ (setMembers i m c).2.dev = c.dev := by
  by_cases hlen : len < 4
  · have herr : (readXY c.rd).2.err = true := by rw [hc, readXY_short hlen]
    rw [setMembers, reading_of_err herr]
    exact ⟨nofun, rfl⟩
  · have hle : 4 ≤ len := by omega
    have hrange : m.yMax < (sizeParams p).1 ∨ m.xMax < (sizeParams p).2 := by
      by_contra! hno
      exact h ⟨hle, UInt16.not_lt.mp hno.1, UInt16.not_lt.mp hno.2⟩
    have heq : setMembers i m c = _ :=
      (reading_of_ok (hc ▸ readXY_of_le hle) rfl).trans (then_call hrange _ _ _)
    rw [heq]
    exact ⟨nofun, rfl⟩

/-- `SetMembers` stores the matrix its parameters describe, also when it then fails. -/
theorem setMembers_eq (hc : c.rd = Reader.init p len) (h : m.sizeOk p len) :
    (setMembers i m c).1 = (if cellsTruncated p len then .badFormat else .ok) ∧
      (setMembers i m c).2.dev = storeMatrix i (m.described p len) c.dev := by
  obtain ⟨hlen, hy, hx⟩ := h
  have hrange : ¬(m.yMax < (sizeParams p).1 ∨ m.xMax < (sizeParams p).2) := by
    simp only [not_or, UInt16.not_lt]
    exact ⟨hy, hx⟩
  have hword : (⟨p, len, 4, false, 4⟩ : Reader).word = cellNumber p len := by
    funext k
    simp only [Reader.word, cellNumber, Reader.remaining_eq, Bool.false_or, decide_eq_true_eq]
    split_ifs <;> first | rfl | omega
  have htrunc : (false || decide ((⟨p, len, 4, false, 4⟩ : Reader).remaining <
      4 * (cells (sizeParams p).1.toNat (sizeParams p).2.toNat).length)) = true ↔
      cellsTruncated p len := by
    simp only [Reader.remaining_eq, cells, cellsTruncated, Bool.false_or, decide_eq_true_eq]
    simp
    omega
  have heq : setMembers i m c = _ :=
    (reading_of_ok (hc ▸ readXY_of_le hlen) rfl).trans (else_call hrange _ _ _)
  rw [heq]
  constructor
  · dsimp only
    rw [readMembers_err]
    simp only [htrunc]
  · dsimp only
    rw [readMembers_fst, hword, MatrixPriv.storeCells_cells]
    rfl

end SetMembers

/-! ### Failed calls -/

/-- `SetMembers` reaches its handler with a size it accepts and a list that ends too early, and the
grid stored until then is not the one there was. -/
def TornMembers (d : Device K) (i : ObjRef) (level index : UInt16) (p : Ptr) (len : ℕ) : Prop :=
  level = 3 ∧ index = 6 ∧ (d.obj i).kind = .matrix ∧ d.gate i 3 6 = none ∧
    ∃ m, (d.obj i).priv = .matrix m ∧ m.sizeOk p len ∧ cellsTruncated p len ∧ m.described p len ≠ m

/-- `ApplyParameterData` reaches its handler with a list of entries that ends too early, and the
complete ones leave a trace. -/
def TornRecall (d : Device K) (i : ObjRef) (level index : UInt16) (p : Ptr) (len : ℕ) : Prop :=
  level = 3 ∧ index = 26 ∧ (d.obj i).kind = .block ∧ d.gate i 3 26 = none ∧
    ∃ es, recallParams (Reader.init p len) = some (es, true) ∧ d.RecallTraces es

/-- The device of a failed call, up to the counter of object numbers. -/
def Untouched (d : Device K) (r : Status × Call K) : Prop :=
  r.1 ≠ .ok → { r.2.dev with nextOno := d.nextOno } = d

section Atomic

variable {d : Device K} {i : ObjRef} {c : Call K} {p : Ptr} {len : ℕ}

theorem untouched_of_dev {r : Status × Call K} (h : r.2.dev = d) : Untouched d r :=
  fun _ => by rw [h]

theorem setMembers_untouched_iff (hi : i < d.objects.length) (hk : (d.obj i).kind = .matrix)
    (hc : c.dev = d) (hrd : c.rd = Reader.init p len) :
    Untouched d (objectDispatch i 3 6 c) ↔ ¬TornMembers d i 3 6 p len := by
  cases hg : d.gate i 3 6 with
  | some st =>
    refine iff_of_true (untouched_of_dev (objectDispatch_of_gate hg hc)) ?_
    rintro ⟨-, -, -, hnone, -⟩
    rw [hg] at hnone
    cases hnone
  | none =>
    have hh : handlerFor (K := K) (d.obj i).kind 3 = some matrixDispatch := by rw [hk]; rfl
    rw [objectDispatch_of_handler hh hg hc]
    cases hp : (d.obj i).priv with
    | matrix m =>
      have heq : matrixDispatch i 6 c = setMembers i m c := by
        subst hc
        unfold matrixDispatch look
        simp only [hp]
      rw [heq]
      by_cases hsize : m.sizeOk p len
      · obtain ⟨hst, hdev⟩ := setMembers_eq (i := i) hrd hsize
        have hsame : { (setMembers i m c).2.dev with nextOno := d.nextOno } = d ↔
            m.described p len = m := by
          rw [hdev, hc]
          constructor
          · intro h
            by_contra hne
            exact Device.modifyObj_priv_ne hi hp (by simpa using hne) h
          · intro h
            have hself : storeMatrix i m d = d := Device.modifyObj_eq_self (by rw [← hp])
            rw [h, hself]
        unfold Untouched
        rw [hst, hsame]
        simp [TornMembers, hk, hg, hp, hsize]
      · obtain ⟨-, hdev⟩ := setMembers_refused (i := i) hrd hsize
        refine iff_of_true (untouched_of_dev (hdev.trans hc)) ?_
        rintro ⟨-, -, -, -, m', hp', hsize', -⟩
        obtain rfl : m = m' := by simpa [hp] using hp'
        exact hsize hsize'
    | null | dynamics _ | filter _ | peq _ | pan _ | siggen _ | grouper _ =>
      have heq : matrixDispatch i 6 c = (.deviceError, c) := by
        subst hc
        unfold matrixDispatch look
        simp only [hp, ret]
      refine iff_of_true (untouched_of_dev (by rw [heq, hc])) ?_
      rintro ⟨-, -, -, -, m, hp', -⟩
      rw [hp] at hp'
      cases hp'

theorem recall_untouched_iff (hk : (d.obj i).kind = .block) (hc : c.dev = d)
    (hrd : c.rd = Reader.init p len) :
    Untouched d (objectDispatch i 3 26 c) ↔ ¬TornRecall d i 3 26 p len := by
  cases hg : d.gate i 3 26 with
  | some st =>
    refine iff_of_true (untouched_of_dev (objectDispatch_of_gate hg hc)) ?_
    rintro ⟨-, -, -, hnone, -⟩
    rw [hg] at hnone
    cases hnone
  | none =>
    have hh : handlerFor (K := K) (d.obj i).kind 3 = some blockDispatch := by rw [hk]; rfl
    have heq := applyParameterData_dev c
    rw [objectDispatch_of_handler hh hg hc]
    change Untouched d (applyParameterData c) ↔ _
    rw [hrd, hc] at heq
    unfold Untouched
    unfold Device.recallOutcome at heq
    split at heq
    · next hnone =>
      obtain ⟨-, hdev⟩ := Prod.mk.inj heq
      refine iff_of_true (untouched_of_dev hdev) ?_
      rintro ⟨-, -, -, -, es, hsome, -⟩
      rw [hnone] at hsome
      cases hsome
    · next es truncated hsome =>
      obtain ⟨hst, hdev⟩ := Prod.mk.inj heq
      have hsame : { d.recall es with nextOno := d.nextOno } = d ↔ d.recall es = d := by
        rw [← Device.nextOno_recall d es]
      rw [hst, hdev, hsame, Device.recall_eq_self_iff]
      cases truncated
      · simp [TornRecall, hsome]
      · simp [TornRecall, hsome, hk, hg]

theorem untouched_of_outcome {level index : UInt16} {st : Status} {d' : Device K}
    (hout : Outcome d i level index st d')
    (hm : ¬(level = 3 ∧ index = 6 ∧ (d.obj i).kind = .matrix))
    (hr : ¬(level = 3 ∧ index = 26 ∧ (d.obj i).kind = .block)) (hst : st ≠ .ok) :
    { d' with nextOno := d.nextOno } = d := by
  cases hout with
  | same => rfl
  | noRoom => rfl
  | truncatedMembers m hi hk => exact absurd ⟨hi.1, hi.2, hk⟩ hm
  | truncatedRecall es hi hk => exact absurd ⟨hi.1, hi.2, hk⟩ hr
  | _ => exact absurd rfl hst

/-- **A failed call leaves no trace** — no object, table, notification or callback — exactly when
it is not one of the two methods that store before they have read everything, caught half-way. -/
theorem dispatch_atomic_iff (hi : i < d.objects.length) (level index : UInt16) (p : Ptr) (len : ℕ)
    (wr : Writer) (pc : UInt8) :
    Untouched d (objectDispatch i level index ⟨d, Reader.init p len, wr, pc⟩) ↔
      ¬(TornMembers d i level index p len ∨ TornRecall d i level index p len) := by
  by_cases hm : level = 3 ∧ index = 6 ∧ (d.obj i).kind = .matrix
  · obtain ⟨rfl, rfl, hk⟩ := hm
    rw [setMembers_untouched_iff hi hk rfl rfl, or_iff_left]
    rintro ⟨-, h, -⟩
    cases h
  · by_cases hr : level = 3 ∧ index = 26 ∧ (d.obj i).kind = .block
    · obtain ⟨rfl, rfl, hk⟩ := hr
      rw [recall_untouched_iff hk rfl rfl, or_iff_right]
      rintro ⟨-, h, -⟩
      cases h
    · refine iff_of_true (untouched_of_outcome (objectDispatch_outcome i level index _ rfl) hm hr)
        ?_
      rintro (⟨h, h', h'', -⟩ | ⟨h, h', h'', -⟩)
      · exact hm ⟨h, h', h''⟩
      · exact hr ⟨h, h', h''⟩

/-- `SetLabel` of the root block, with one byte of a label of five. -/
theorem dispatch_atomic_cutLabel :
    let c : Call .default :=
      ⟨Sample.start, Reader.init (Ptr.ofBytes [0, 5, 0x41] fun _ => 0) 3, .init 64, 1⟩
    (objectDispatch 2 2 9 c).1 = .badFormat ∧ Untouched Sample.start (objectDispatch 2 2 9 c) := by
  refine ⟨by decide, (dispatch_atomic_iff (by decide) 2 9 _ 3 (.init 64) 1).2 ?_⟩
  rintro (⟨h, -⟩ | ⟨h, -⟩) <;> cases h

/-- A reachable device where a truncated `SetMembers` and a truncated recall leave a trace. -/
theorem torn_calls_touch :
    let d := Sample.after
      [.create (.matrix 2 2) none [], .create (.gain (f32 0) (f32 1) (f32 0)) none []]
    let cells := Reader.ofBytes [0, 1, 0, 2, 0, 0, 0, 7]
    let entries := Reader.ofBytes
      ([0, 0, 0, 14, 0, 2] ++ wr32 4097 ++ [0x3F, 0xF0, 0, 0, 0, 0, 0, 0])
    (server .default).Reach d ∧
      ¬Untouched d (objectDispatch 3 3 6 ⟨d, cells, .init 64, 0⟩) ∧
      ¬Untouched d (objectDispatch 2 3 26 ⟨d, entries, .init 64, 0⟩) := by
  intro d cells entries
  refine ⟨Sample.reach_after (.cons Sample.ok_create (.cons Sample.ok_create (.nil _))),
    fun h => ?_, fun h => ?_⟩
  · have hobj := congrArg (fun d => (d.obj 3).priv) (h (by decide))
    exact absurd hobj (by decide)
  · have hobj := congrArg (fun d => (d.obj 4).num) (h (by decide))
    exact absurd hobj (by decide)

end Atomic

end Aes70
