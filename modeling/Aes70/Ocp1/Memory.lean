import Aes70.Ocp1.Stores

/-!
# The writer in memory

`Writer` keeps the bytes that were written. The functions of `aes70_ocp1.h` and `aes70_ocp1.c` store
them through a pointer, into memory that goes on behind the buffer.

* `MemWriter` : `ocp1_wr_t` with the memory its pointer goes to.
* `MemWriter.writer` : the bytes written, as the other modules see them.
* `MemWriter.writer_field` : the two views agree on every field.
* `MemWriter.Frame w w'` : from `w` to `w'` nothing before `w.off` or from `w.cap` on was stored to.
-/

namespace Aes70

/-- Memory after `memcpy(p + pos, bs, n)`. -/
def Ptr.store (p : Ptr) (pos : ℕ) (bs : Bytes) : Ptr := fun k =>
  if pos ≤ k ∧ k < pos + bs.length then bs.getD (k - pos) 0 else p k

section Store

variable {p : Ptr} {pos : ℕ} {bs bs' : Bytes}

theorem Ptr.store_of_lt {k : ℕ} (h : k < pos) : p.store pos bs k = p k :=
  if_neg fun hk => Nat.not_le.2 h hk.1

theorem Ptr.store_of_ge {k : ℕ} (h : pos + bs.length ≤ k) : p.store pos bs k = p k :=
  if_neg fun hk => Nat.not_lt.2 h hk.2

theorem Ptr.store_append :
    p.store pos (bs ++ bs') = (p.store pos bs).store (pos + bs.length) bs' := by
  funext k
  simp only [store, List.length_append, List.getD_eq_getElem?_getD]
  by_cases hp : pos ≤ k
  · by_cases hk : k < pos + bs.length
    · rw [if_pos ⟨hp, by omega⟩, if_neg (by omega), if_pos ⟨hp, hk⟩,
        List.getElem?_append_left (by omega)]
    · rw [if_neg (by omega : ¬(pos ≤ k ∧ k < pos + bs.length)),
        List.getElem?_append_right (by omega), Nat.sub_sub]
      refine if_congr ⟨fun h => ⟨by omega, by omega⟩, fun h => ⟨by omega, by omega⟩⟩ rfl rfl
  · rw [if_neg fun h => hp h.1, if_neg (by omega), if_neg fun h => hp h.1]

/-- What was in front of a store and what it stored, in one piece. -/
theorem Ptr.read_store : (p.store pos bs).read (pos + bs.length) = p.read pos ++ bs := by
  refine List.ext_getElem (by simp) fun k hk hk' => ?_
  rw [Ptr.length_read] at hk
  simp only [read, List.getElem_map, List.getElem_range]
  by_cases hlt : k < pos
  · rw [store_of_lt hlt, List.getElem_append_left (by simpa using hlt)]
    simp
  · rw [List.getElem_append_right (by simpa using hlt), store, if_pos ⟨by omega, hk⟩]
    simp [List.getD_eq_getElem?_getD, show k - pos < bs.length by omega]

end Store

/-- `ocp1_wr_t`. -/
structure MemWriter where
  /-- The memory from `w->p` on. -/
  p : Ptr
  cap : ℕ
  off : ℕ
  err : Bool

namespace MemWriter

/-- `ocp1_wr_init`. -/
def init (p : Ptr) (cap : ℕ) : MemWriter := ⟨p, cap, 0, false⟩

/-- `ocp1_wr_room`, and what follows it where there is room for `n` bytes. -/
def room (w : MemWriter) (n : ℕ) (k : MemWriter → MemWriter) : MemWriter :=
  if w.err || decide (w.cap < w.off + n) then { w with err := true } else k w

/-- `ocp1_wr_u8`. -/
def u8 (w : MemWriter) (v : UInt8) : MemWriter :=
  w.room 1 fun w => { w with p := w.p.store w.off [v], off := w.off + 1 }

/-- `ocp1_wr_u16`. -/
def u16 (w : MemWriter) (v : UInt16) : MemWriter :=
  w.room 2 fun w => { w with p := w.p.store w.off (wr16 v), off := w.off + 2 }

/-- `ocp1_wr_u32`. -/
def u32 (w : MemWriter) (v : UInt32) : MemWriter :=
  w.room 4 fun w => { w with p := w.p.store w.off (wr32 v), off := w.off + 4 }

/-- `ocp1_wr_u64`: the high word, then the low word. -/
def u64 (w : MemWriter) (v : UInt64) : MemWriter :=
  w.room 8 fun w =>
    { w with
      p := (w.p.store w.off (wr32 (v >>> 32).toUInt32)).store (w.off + 4) (wr32 v.toUInt32)
      off := w.off + 8 }

/-- `ocp1_wr_bytes`. -/
def bytes (w : MemWriter) (bs : Bytes) : MemWriter :=
  w.room bs.length fun w => { w with p := w.p.store w.off bs, off := w.off + bs.length }

/-- `ocp1_wr_string`, of a text without NUL. -/
def string (w : MemWriter) (s : Bytes) : MemWriter :=
  (w.u16 (UInt16.ofNat (codepoints s))).bytes s

/-- `ocp1_wr_blob`, of at most 65535 bytes. -/
def blob (w : MemWriter) (bs : Bytes) : MemWriter := (w.u16 (UInt16.ofNat bs.length)).bytes bs

/-- Write one field; `ocp1_wr_f32` and `ocp1_wr_f64` write the bits. -/
def field (w : MemWriter) : Field → MemWriter
  | .u8 v => w.u8 v
  | .u16 v => w.u16 v
  | .u32 v => w.u32 v
  | .f32 v => w.u32 ⟨v.bits⟩
  | .f64 v => w.u64 ⟨v.bits⟩
  | .bytes bs => w.bytes bs
  | .string s => w.string s
  | .blob bs => w.blob bs

/-- Write a sequence of fields. -/
def fields (w : MemWriter) (fs : List Field) : MemWriter := fs.foldl field w

/-! ### The bytes written -/

/-- The bytes written, with capacity and error. -/
def writer (w : MemWriter) : Writer := ⟨w.p.read w.off, w.cap, w.err⟩

section Writer

variable {w : MemWriter}

theorem off_writer (w : MemWriter) : w.writer.off = w.off := Ptr.length_read _ _

/-- A check and a store of `bs`, however the store is put together. -/
theorem writer_room {n : ℕ} {bs : Bytes} {k : MemWriter → MemWriter} (hn : bs.length = n)
    (hk : k w = { w with p := w.p.store w.off bs, off := w.off + n }) :
    (w.room n k).writer = w.writer.put bs := by
  subst hn
  unfold room Writer.put
  rw [off_writer]
  change (if w.err || decide (w.cap < w.off + bs.length) then _ else _ : MemWriter).writer =
    if w.err || decide (w.cap < w.off + bs.length) then _ else _
  split_ifs
  · rfl
  · rw [hk]
    unfold writer
    dsimp only
    rw [Ptr.read_store]

theorem writer_u64 (v : UInt64) :
    (w.u64 v).writer = w.writer.put (BigEndian.encode 8 v.toNat) := by
  have hsplit : BigEndian.encode 8 v.toNat = wr32 (v >>> 32).toUInt32 ++ wr32 v.toUInt32 := by
    have hhigh : (v >>> 32).toUInt32.toNat = v.toNat / 256 ^ 4 := by
      have hlt := v.toNat_lt
      rw [UInt64.toNat_toUInt32, UInt64.toNat_shiftRight, Nat.shiftRight_eq_div_pow]
      change v.toNat / 2 ^ 32 % 2 ^ 32 = _
      omega
    have hlow : v.toUInt32.toNat = v.toNat % 256 ^ 4 := UInt64.toNat_toUInt32 v
    rw [wr32, wr32, hhigh, hlow, BigEndian.encode_mod]
    exact BigEndian.encode_add 4 4 v.toNat
  exact writer_room (BigEndian.length_encode 8 _) (by rw [hsplit, Ptr.store_append, length_wr32])

/-- **The two views agree** on every field. -/
theorem writer_field (w : MemWriter) (f : Field) : (w.field f).writer = w.writer.field f := by
  have hu16 (w : MemWriter) (v : UInt16) : (w.u16 v).writer = w.writer.put (wr16 v) :=
    writer_room (length_wr16 v) rfl
  have hu32 (v : UInt32) : (w.u32 v).writer = w.writer.put (wr32 v) :=
    writer_room (length_wr32 v) rfl
  have hbytes (w : MemWriter) (bs : Bytes) : (w.bytes bs).writer = w.writer.put bs :=
    writer_room rfl rfl
  cases f with
  | u8 v => exact writer_room List.length_singleton rfl
  | u16 v => exact hu16 w v
  | u32 v => exact hu32 v
  | f32 v => exact hu32 _
  | f64 v => exact writer_u64 _
  | bytes bs => exact hbytes w bs
  | string s =>
    change ((w.u16 _).bytes s).writer = (w.writer.put _).put s
    rw [hbytes, hu16]
  | blob bs =>
    change ((w.u16 _).bytes bs).writer = (w.writer.put _).put bs
    rw [hbytes, hu16]

theorem writer_fields (w : MemWriter) (fs : List Field) :
    (w.fields fs).writer = w.writer.fields fs := by
  induction fs generalizing w with
  | nil => rfl
  | cons f fs ih => exact (ih _).trans (congrArg (Writer.fields · fs) (writer_field w f))

end Writer

/-! ### What is left alone -/

/-- From `w` to `w'` only bytes behind those of `w`, and inside the buffer, were stored to. -/
structure Frame (w w' : MemWriter) : Prop where
  cap : w'.cap = w.cap
  off : w.off ≤ w'.off
  written : ∀ k < w.off, w'.p k = w.p k
  outside : ∀ k, w.cap ≤ k → w'.p k = w.p k

namespace Frame

variable {w w' w'' : MemWriter}

theorem refl (w : MemWriter) : Frame w w := ⟨rfl, Nat.le_refl _, fun _ _ => rfl, fun _ _ => rfl⟩

theorem trans (h : Frame w w') (h' : Frame w' w'') : Frame w w'' where
  cap := h'.cap.trans h.cap
  off := h.off.trans h'.off
  written k hk := (h'.written k (hk.trans_le h.off)).trans (h.written k hk)
  outside k hk := (h'.outside k (h.cap ▸ hk)).trans (h.outside k hk)

/-- A check, and a store of as many bytes as were checked for. -/
theorem room {n : ℕ} {k : MemWriter → MemWriter} (hcap : (k w).cap = w.cap)
    (hoff : (k w).off = w.off + n)
    (hp : ∀ j, j < w.off ∨ w.off + n ≤ j → (k w).p j = w.p j) : Frame w (w.room n k) := by
  unfold MemWriter.room
  split_ifs with hfull
  · exact ⟨rfl, Nat.le_refl _, fun _ _ => rfl, fun _ _ => rfl⟩
  · simp only [Bool.or_eq_true, decide_eq_true_eq, not_or, Nat.not_lt] at hfull
    refine ⟨hcap, by omega, fun j hj => hp j (.inl hj), fun j hj => hp j (.inr ?_)⟩
    exact hfull.2.trans hj

theorem store {bs : Bytes} {n : ℕ} (hn : bs.length = n) :
    Frame w (w.room n fun w => { w with p := w.p.store w.off bs, off := w.off + n }) := by
  subst hn
  refine room rfl rfl fun j hj => ?_
  rcases hj with hj | hj
  · exact Ptr.store_of_lt hj
  · exact Ptr.store_of_ge hj

end Frame

/-- **A field is written** behind what was written before, and inside the buffer. -/
theorem frame_field (w : MemWriter) (f : Field) : Frame w (w.field f) := by
  have hu16 (w : MemWriter) (v : UInt16) : Frame w (w.u16 v) := .store (length_wr16 v)
  have hbytes (w : MemWriter) (bs : Bytes) : Frame w (w.bytes bs) := .store rfl
  cases f with
  | u8 v => exact .store rfl
  | u16 v => exact hu16 w v
  | u32 v | f32 v => exact .store (length_wr32 _)
  | f64 v =>
    -- two stores behind one check
    change Frame w (w.u64 _)
    refine .room (by rfl) (by rfl) fun j hj => ?_
    dsimp only
    rcases hj with hj | hj
    · rw [Ptr.store_of_lt (by omega), Ptr.store_of_lt hj]
    · rw [Ptr.store_of_ge (by rw [length_wr32]; omega),
        Ptr.store_of_ge (by rw [length_wr32]; omega)]
  | bytes bs => exact hbytes w bs
  | string s => exact (hu16 w _).trans (hbytes _ s)
  | blob bs => exact (hu16 w _).trans (hbytes _ bs)

theorem frame_fields (w : MemWriter) (fs : List Field) : Frame w (w.fields fs) := by
  induction fs generalizing w with
  | nil => exact .refl w
  | cons f fs ih => exact (frame_field w f).trans (ih _)

end MemWriter

end Aes70
