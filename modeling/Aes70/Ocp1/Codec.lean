import Aes70.Endian.Basic
import Aes70.Ieee.Basic

/-!
# OCP.1 marshalling

The bounds-checked reader and writer of `aes70_ocp1.h` and `aes70_ocp1.c`.

* `Ptr` : memory as a handler sees it through a byte pointer. It is total: what lies behind the
  last byte of a buffer is memory too, so that an access past the end has a meaning.
* `Reader` : `ocp1_rd_t` with a ghost field `seen`, one past the highest index read so far.
* `Read α` : a read accessor; `Read.u8` … `Read.string`, `Read.blob`.
* `Writer` : `ocp1_wr_t`; the buffer is represented by the bytes written so far, `p[0 .. off)`.
* `Field` : the typed fields handlers write; `Writer.field` writes one.

Sizes and offsets are naturals; `szAdd` is the one place where an addition can wrap in the 32-bit
`size_t` of the targets.
-/

namespace Aes70

/-- `float`. -/
abbrev F32 := Ieee.Single

/-- `double`. -/
abbrev F64 := Ieee.Double

/-- A byte string. C strings are represented without their terminator. -/
abbrev Bytes := List UInt8

/-- The bytes of an ASCII literal of the source. -/
def ascii (s : String) : Bytes := s.toList.map fun c => UInt8.ofNat c.toNat

/-- What `dst` holds as a C string after `bs` and a terminator were copied into it. -/
def cstr (bs : Bytes) : Bytes := bs.takeWhile (· != 0)

/-- `strlcpy(dst, src, size)`. -/
def strlcpy (size : ℕ) (src : Bytes) : Bytes := src.take (size - 1)

/-- Addition in the 32-bit `size_t` of the ESP targets. -/
def szAdd (a b : ℕ) : ℕ := (a + b) % 2 ^ 32

/-- Memory as seen through a `const uint8_t *`. -/
abbrev Ptr := ℕ → UInt8

namespace Ptr

/-- Pointer arithmetic, `p + n`. -/
def add (p : Ptr) (n : ℕ) : Ptr := fun k => p (n + k)

/-- The bytes `p[0 .. n)`. -/
def read (p : Ptr) (n : ℕ) : Bytes := (List.range n).map p

/-- The bytes `bs` followed by the memory `rest`. -/
def ofBytes (bs : Bytes) (rest : Ptr) : Ptr := fun k => bs.getD k (rest (k - bs.length))

@[simp] theorem add_zero (p : Ptr) : p.add 0 = p := funext fun k => by simp [add]

theorem add_add (p : Ptr) (m n : ℕ) : (p.add m).add n = p.add (m + n) :=
  funext fun k => by simp [add, Nat.add_assoc]

@[simp] theorem length_read (p : Ptr) (n : ℕ) : (p.read n).length = n := by simp [read]

/-- What is read inside the bytes given does not depend on the memory behind them. -/
theorem read_add_ofBytes {pre bs post : Bytes} {rest : Ptr} :
    ((ofBytes (pre ++ (bs ++ post)) rest).add pre.length).read bs.length = bs := by
  apply List.ext_getElem (length_read _ _)
  intro k hk hk'
  simp only [read, add, ofBytes, List.getElem_map, List.getElem_range, List.getD_eq_getElem?_getD]
  rw [List.getElem?_append_right (Nat.le_add_right _ _), Nat.add_sub_cancel_left,
    List.getElem?_append_left hk', List.getElem?_eq_getElem hk', Option.getD_some]

theorem read_ofBytes (bs : Bytes) (rest : Ptr) : (ofBytes bs rest).read bs.length = bs := by
  apply List.ext_getElem (length_read _ _)
  intro k hk hk'
  simp [read, ofBytes, hk']

end Ptr

/-! ### Big-endian scalars -/

/-- `ocp1_rd16`. -/
def rd16 (bs : Bytes) : UInt16 := UInt16.ofNat (BigEndian.decode bs)

/-- `ocp1_rd32`. -/
def rd32 (bs : Bytes) : UInt32 := UInt32.ofNat (BigEndian.decode bs)

/-- `ocp1_wr16`. -/
def wr16 (v : UInt16) : Bytes := BigEndian.encode 2 v.toNat

/-- `ocp1_wr32`. -/
def wr32 (v : UInt32) : Bytes := BigEndian.encode 4 v.toNat

@[simp] theorem length_wr16 (v : UInt16) : (wr16 v).length = 2 := BigEndian.length_encode 2 _

@[simp] theorem length_wr32 (v : UInt32) : (wr32 v).length = 4 := BigEndian.length_encode 4 _

@[simp] theorem rd16_wr16 (v : UInt16) : rd16 (wr16 v) = v := by
  rw [rd16, wr16, BigEndian.decode_encode_of_lt v.toNat_lt, UInt16.ofNat_toNat]

@[simp] theorem rd32_wr32 (v : UInt32) : rd32 (wr32 v) = v := by
  rw [rd32, wr32, BigEndian.decode_encode_of_lt v.toNat_lt, UInt32.ofNat_toNat]

theorem wr16_rd16 {bs : Bytes} (h : bs.length = 2) : wr16 (rd16 bs) = bs := by
  have hlt := BigEndian.decode_lt bs
  rw [h] at hlt
  rw [wr16, rd16, UInt16.toNat_ofNat_of_lt' hlt, ← h, BigEndian.encode_decode]

theorem wr32_rd32 {bs : Bytes} (h : bs.length = 4) : wr32 (rd32 bs) = bs := by
  have hlt := BigEndian.decode_lt bs
  rw [h] at hlt
  rw [wr32, rd32, UInt32.toNat_ofNat_of_lt' hlt, ← h, BigEndian.encode_decode]

/-! ### Reader -/

/-- `ocp1_rd_t`. -/
structure Reader where
  /-- First byte of the readable area. -/
  p : Ptr
  /-- Size of the readable area. -/
  len : ℕ
  /-- Next byte to read. -/
  off : ℕ
  /-- Latched on the first underrun. -/
  err : Bool
  /-- Ghost: one past the highest index of `p` read so far. -/
  seen : ℕ

/-- A read accessor: its result and the reader it leaves. -/
def Read (α : Type) := Reader → α × Reader

namespace Reader

/-- `ocp1_rd_init`. -/
def init (p : Ptr) (len : ℕ) : Reader := ⟨p, len, 0, false, 0⟩

/-- A reader over exactly these bytes. -/
def ofBytes (bs : Bytes) : Reader := init (Ptr.ofBytes bs fun _ => 0) bs.length

/-- `ocp1_rd_remaining`. -/
def remaining (r : Reader) : ℕ := if r.off ≤ r.len then r.len - r.off else 0

/-- Latch the error. -/
def fail (r : Reader) : Reader := { r with err := true }

/-- Move past `n` bytes, all of them read. -/
def advance (r : Reader) (n : ℕ) : Reader :=
  { r with off := r.off + n, seen := max r.seen (r.off + n) }

theorem remaining_eq (r : Reader) : r.remaining = r.len - r.off := by
  unfold remaining
  split_ifs <;> omega

@[simp] theorem remaining_advance (r : Reader) (n : ℕ) :
    (r.advance n).remaining = r.remaining - n := by
  rw [remaining_eq, remaining_eq]
  exact Nat.sub_add_eq _ _ _

/-- The next `n` bytes. -/
def peek (r : Reader) (n : ℕ) : Bytes := (r.p.add r.off).read n

end Reader

namespace Read

variable {α β : Type}

instance : Monad Read where
  pure a := fun r => (a, r)
  bind x f := fun r => f (x r).1 (x r).2

@[simp] theorem pure_apply (a : α) (r : Reader) : (pure a : Read α) r = (a, r) := rfl

@[simp] theorem bind_apply (x : Read α) (f : α → Read β) (r : Reader) :
    (x >>= f) r = f (x r).1 (x r).2 := rfl

/-- The fixed-size accessors: `n` bytes decoded by `f`, or `zero` on an underrun
(`ocp1_rd_need`). -/
def fixed (n : ℕ) (zero : α) (f : Bytes → α) : Read α := fun r =>
  if r.err || decide (r.remaining < n) then (zero, r.fail) else (f (r.peek n), r.advance n)

theorem fixed_of_le {n : ℕ} {zero : α} {f : Bytes → α} {r : Reader} (he : r.err = false)
    (hn : n ≤ r.remaining) : fixed n zero f r = (f (r.peek n), r.advance n) := by
  rw [fixed, if_neg (by simp [he, hn])]

/-- `ocp1_rd_u8`. -/
def u8 : Read UInt8 := fixed 1 0 fun bs => UInt8.ofNat (BigEndian.decode bs)

/-- `ocp1_rd_u16`. -/
def u16 : Read UInt16 := fixed 2 0 rd16

/-- `ocp1_rd_u32`. -/
def u32 : Read UInt32 := fixed 4 0 rd32

/-- `ocp1_rd_u64`: the high word comes first. -/
def u64 : Read UInt64 := fixed 8 0 fun bs => UInt64.ofNat (BigEndian.decode bs)

/-- `ocp1_rd_f32`. -/
def f32 : Read F32 := do
  let u ← u32
  return ⟨u.toBitVec⟩

/-- `ocp1_rd_f64`. -/
def f64 : Read F64 := do
  let u ← u64
  return ⟨u.toBitVec⟩

/-- Length of the UTF-8 sequence a lead byte announces. -/
def seqLen (lead : UInt8) : ℕ :=
  if lead < 0x80 then 1 else if lead < 0xE0 then 2 else if lead < 0xF0 then 3 else 4

/-- The loop of `ocp1_rd_string` over the `cps` codepoints still to walk: the byte length reached,
`none` when it hits the end of the `avail` bytes, and one past the last lead byte read. -/
def walk (p : Ptr) (avail : ℕ) : (cps bytes top : ℕ) → Option ℕ × ℕ
  | 0, bytes, top => (some bytes, top)
  | cps + 1, bytes, top =>
    if avail ≤ bytes then (none, top)
    else walk p avail cps (bytes + seqLen (p bytes)) (bytes + 1)

/-- `ocp1_rd_string` into a buffer of `cap` bytes; the result is what the buffer holds as a C
string afterwards. The length prefix counts codepoints, the whole field is always consumed, and at
most `cap - 1` bytes of it are copied. -/
def string (cap : ℕ) : Read Bytes := fun r =>
  let (cps, r) := u16 r
  if r.err then ([], r) else
    match walk (r.p.add r.off) r.remaining cps.toNat 0 0 with
    | (some bytes, top) =>
      if r.remaining < bytes then ([], { r.fail with seen := max r.seen (r.off + top) })
      else (cstr ((r.peek bytes).take (cap - 1)), r.advance bytes)
    | (none, top) => ([], { r.fail with seen := max r.seen (r.off + top) })

theorem length_string_le (cap : ℕ) (r : Reader) : (string cap r).1.length ≤ cap - 1 := by
  unfold string
  dsimp only
  split
  · exact Nat.zero_le _
  · split
    · split_ifs
      · exact Nat.zero_le _
      · exact (List.takeWhile_sublist _).length_le.trans (List.length_take_le _ _)
    · exact Nat.zero_le _

/-- `ocp1_rd_blob`: the blob, `none` for the null pointer. All of its bytes count as read. -/
def blob : Read (Option Bytes) := fun r =>
  let (n, r) := u16 r
  if r.err || decide (r.remaining < n.toNat) then (none, r.fail)
  else (some (r.peek n.toNat), r.advance n.toNat)

end Read

/-! ### Writer -/

/-- `ocp1_wr_t`. -/
structure Writer where
  /-- The bytes written so far, `p[0 .. off)`. -/
  buf : Bytes
  /-- Capacity of the buffer. -/
  cap : ℕ
  /-- Latched on overflow. -/
  err : Bool
deriving DecidableEq

/-- A typed field of a message. -/
inductive Field
  | u8 (v : UInt8)
  | u16 (v : UInt16)
  | u32 (v : UInt32)
  | f32 (v : F32)
  | f64 (v : F64)
  | bytes (bs : Bytes)
  | string (s : Bytes)
  | blob (bs : Bytes)
deriving DecidableEq

/-- Bytes that are not UTF-8 continuation bytes, capped at the range of the length prefix. -/
def codepoints (s : Bytes) : ℕ := min (s.countP fun b => b &&& 0xC0 != 0x80) 0xFFFF

/-- The pieces a field is written in, one bounds check each. -/
def Field.pieces : Field → List Bytes
  | .u8 v => [[v]]
  | .u16 v => [wr16 v]
  | .u32 v => [wr32 v]
  | .f32 v => [wr32 ⟨v.bits⟩]
  | .f64 v => [BigEndian.encode 8 v.bits.toNat]
  | .bytes bs => [bs]
  | .string s => [wr16 (UInt16.ofNat (codepoints s)), s]
  | .blob bs => [wr16 (UInt16.ofNat bs.length), bs]

/-- The wire form of a field. -/
def Field.encode (f : Field) : Bytes := f.pieces.flatten

/-- The wire form of a field sequence. -/
def Field.encodeAll (fs : List Field) : Bytes := fs.flatMap Field.encode

/-- `ocp1_wr_class_id`. -/
def Field.classId (ids : List UInt16) : List Field :=
  .u16 (UInt16.ofNat ids.length) :: ids.map .u16

namespace Writer

/-- `ocp1_wr_init`. -/
def init (cap : ℕ) : Writer := ⟨[], cap, false⟩

/-- `w->off`. -/
def off (w : Writer) : ℕ := w.buf.length

/-- `ocp1_wr_bytes`, and the pattern of every fixed-size `ocp1_wr_…`: check the room, then
store. -/
def put (w : Writer) (bs : Bytes) : Writer :=
  if w.err || decide (w.cap < w.off + bs.length) then { w with err := true }
  else { w with buf := w.buf ++ bs }

/-- Write one field. -/
def field (w : Writer) (f : Field) : Writer := f.pieces.foldl put w

/-- Write a sequence of fields. -/
def fields (w : Writer) (fs : List Field) : Writer := fs.foldl field w

/-- Overwrite bytes already written, `p[at ..]`. -/
def patch (w : Writer) (pos : ℕ) (bs : Bytes) : Writer :=
  { w with buf := w.buf.take pos ++ bs ++ w.buf.drop (pos + bs.length) }

/-- Move the write offset back to `n`. -/
def rewind (w : Writer) (n : ℕ) : Writer := { w with buf := w.buf.take n }

end Writer

end Aes70
