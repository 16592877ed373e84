import Aes70.Class.Handler

/-!
# OcaMatrix

The method handler of `aes70_matrix.c`. Columns and rows are numbered from 1 on the wire; the
member array is 16 × 16 whatever the current size is.
-/

namespace Aes70

open Handler

variable {K : Kconfig}

namespace MatrixPriv

/-- `aes70_matrix_init`. -/
def init (xSize ySize : UInt16) : MatrixPriv where
  xSize := min xSize 16
  ySize := min ySize 16
  xMax := 16
  yMax := 16
  curX := 0
  curY := 0
  proxyOno := 0
  portsPerRow := 1
  portsPerCol := 1
  xyLocked := false
  members := fun _ _ => 0

/-- `m->members[y][x]`; an index outside the array reads 0. -/
def member (m : MatrixPriv) (y x : ℕ) : UInt32 :=
  if h : y < 16 ∧ x < 16 then m.members ⟨y, h.1⟩ ⟨x, h.2⟩ else 0

/-- `m->members[y][x] = ono`; an index outside the array stores nothing. -/
def setMember (m : MatrixPriv) (y x : ℕ) (ono : UInt32) : MatrixPriv :=
  if h : y < 16 ∧ x < 16 then
    let row := Function.update (m.members ⟨y, h.1⟩) ⟨x, h.2⟩ ono
    { m with members := Function.update m.members ⟨y, h.1⟩ row }
  else m

/-- The stores of `SetSize`. -/
def setSize (m : MatrixPriv) (x y : UInt16) : MatrixPriv :=
  { m with
    xSize := x
    ySize := y
    curX := if x < m.curX then 0 else m.curX
    curY := if y < m.curY then 0 else m.curY }

end MatrixPriv

/-- The cells of `rows` rows and `cols` columns, row by row. -/
def cells (rows cols : ℕ) : List (ℕ × ℕ) :=
  (List.range rows).flatMap fun y => (List.range cols).map fun x => (y, x)

/-- The store loop of `SetMembers`: one number is read for each cell, also after an underrun. -/
def readMembers : List (ℕ × ℕ) → MatrixPriv → Read MatrixPriv
  | [], m => pure m
  | (y, x) :: cs, m => do
    let ono ← Read.u32
    readMembers cs (m.setMember y x ono)

/-- A store to the private state of the matrix. -/
def storeMatrix (i : ObjRef) (m : MatrixPriv) (d : Device K) : Device K :=
  d.modifyObj i fun o => { o with priv := .matrix m }

/-- Two `u16` parameters. -/
def readXY : Read (UInt16 × UInt16) := do return (← Read.u16, ← Read.u16)

/-- `SetMembers`: the new size and every cell are stored before the error is looked at. -/
def setMembers (i : ObjRef) (m : MatrixPriv) : Handler K :=
  reading readXY fun (rows, cols) =>
    if m.yMax < rows ∨ m.xMax < cols then ret .parameterOutOfRange else fun c =>
      let (m', rd) := readMembers (cells rows.toNat cols.toNat)
        { m with ySize := rows, xSize := cols } c.rd
      (if rd.err then .badFormat else .ok, { c with rd, dev := storeMatrix i m' c.dev })

/-- The coordinates of a member name a cell of the current grid. -/
def MatrixPriv.hasCell (m : MatrixPriv) (x y : UInt16) : Bool :=
  !(x < 1 || m.xSize < x || y < 1 || m.ySize < y)

/-- `aes70_matrix_dispatch`: OcaMatrix, level 3. -/
def matrixDispatch (i : ObjRef) (idx : UInt16) : Handler K := look fun d =>
  match (d.obj i).priv with
  | .matrix m =>
    match idx with
    | 1 => reply 2 [.u16 m.curX, .u16 m.curY] -- GetCurrentXY
    | 2 => -- SetCurrentXY
      reading readXY fun (x, y) =>
        if m.xyLocked then ret .locked
        else if m.xSize < x ∨ m.ySize < y then ret .parameterOutOfRange
        else store (storeMatrix i { m with curX := x, curY := y })
    | 3 => -- GetSize
      reply 6 [.u16 m.xSize, .u16 m.ySize, .u16 1, .u16 m.xMax, .u16 1, .u16 m.yMax]
    | 4 => -- SetSize
      reading readXY fun (x, y) =>
        if x < 1 ∨ m.xMax < x ∨ y < 1 ∨ m.yMax < y then ret .parameterOutOfRange
        else store (storeMatrix i (m.setSize x y))
    | 5 => -- GetMembers
      reply 1 (.u16 m.ySize :: .u16 m.xSize ::
        (cells m.ySize.toNat m.xSize.toNat).map fun c => .u32 (m.member c.1 c.2))
    | 6 => setMembers i m
    | 7 => -- GetMember
      reading readXY fun (x, y) =>
        if m.hasCell x y then reply 1 [.u32 (m.member (y.toNat - 1) (x.toNat - 1))]
        else ret .parameterOutOfRange
    | 8 => -- SetMember
      reading (do return (← readXY, ← Read.u32)) fun ((x, y), ono) =>
        if m.hasCell x y then store (storeMatrix i (m.setMember (y.toNat - 1) (x.toNat - 1) ono))
        else ret .parameterOutOfRange
    | 9 => reply 1 [.u32 m.proxyOno] -- GetProxy
    | 10 => reading Read.u32 fun v => store (storeMatrix i { m with proxyOno := v })
    | 11 => reply 1 [.u8 m.portsPerRow] -- GetPortsPerRow
    | 12 => reading Read.u8 fun v => store (storeMatrix i { m with portsPerRow := v })
    | 13 => reply 1 [.u8 m.portsPerCol] -- GetPortsPerColumn
    | 14 => reading Read.u8 fun v => store (storeMatrix i { m with portsPerCol := v })
    | 15 => -- SetCurrentXYLock
      reading readXY fun (x, y) =>
        if m.xSize < x ∨ m.ySize < y then ret .parameterOutOfRange
        else store (storeMatrix i { m with curX := x, curY := y, xyLocked := true })
    | 16 => store (storeMatrix i { m with xyLocked := false }) -- UnlockCurrent
    | 17 | 18 => ret .notImplemented -- ExecuteMethod, ExecuteCommands
    | _ => ret .badMethod
  | _ => ret .deviceError

end Aes70
