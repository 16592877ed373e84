import Aes70.Ocp1.Memory
import Aes70.Ocp1.Text

/-!
# Field sequences, written and read back

Whatever sequence of fields is written into a buffer, errors are latched on the first one that does
not fit, and what is written stays; read back by the same types, it is what was written. On bytes
that nobody wrote the reader stays inside its area, and after an underrun nothing is read any more.

* `Item`, `ItemType` : the fields of a sequence and the reads of a sequence.
* `MemWriter.err_items_iff` : when a sequence fits.
* `Read.all_next` : reads give back the items whose bytes are ahead.
* `codec_round_trip` : a sequence written, and read back.
-/

namespace Aes70

/-! ### Items -/

/-- The value of a field. -/
inductive Item
  | u8 (v : UInt8)
  | u16 (v : UInt16)
  | u32 (v : UInt32)
  | u64 (v : UInt64)
  | blob (bs : Bytes)
  | string (s : Bytes)
deriving DecidableEq

/-- A read accessor, with the size of the destination of a string. -/
inductive ItemType
  | u8 | u16 | u32 | u64 | blob
  | string (cap : ℕ)
deriving DecidableEq

namespace Item

/-- A blob that a length of 16 bits can count, a text without NUL of as many codepoints. -/
def Valid : Item → Prop
  | .blob bs => bs.length ≤ 0xFFFF
  | .string s => ∃ cs : List Char, '\x00' ∉ cs ∧ cs.length ≤ 0xFFFF ∧ s = Utf8.encode cs
  | _ => True

/-- The item is of the type, and a string is shorter than its destination. -/
inductive Suits : Item → ItemType → Prop
  | u8 (v : UInt8) : Suits (.u8 v) .u8
  | u16 (v : UInt16) : Suits (.u16 v) .u16
  | u32 (v : UInt32) : Suits (.u32 v) .u32
  | u64 (v : UInt64) : Suits (.u64 v) .u64
  | blob (bs : Bytes) : Suits (.blob bs) .blob
  | string {s : Bytes} {cap : ℕ} (h : s.length < cap) : Suits (.string s) (.string cap)

/-- The size of an item on the wire. -/
def size : Item → ℕ
  | .u8 _ => 1
  | .u16 _ => 2
  | .u32 _ => 4
  | .u64 _ => 8
  | .blob bs => 2 + bs.length
  | .string s => 2 + s.length

/-- The field that writes the item. -/
def field : Item → Field
  | .u8 v => .u8 v
  | .u16 v => .u16 v
  | .u32 v => .u32 v
  | .u64 v => .f64 ⟨v.toBitVec⟩
  | .blob bs => .blob bs
  | .string s => .string s

theorem size_field (v : Item) : v.field.size = v.size := by
  cases v <;> rfl

end Item

namespace ItemType

/-- Call the accessor. The null pointer of a blob comes with the length 0. -/
def read : ItemType → Read Item
  | .u8 => do return .u8 (← Read.u8)
  | .u16 => do return .u16 (← Read.u16)
  | .u32 => do return .u32 (← Read.u32)
  | .u64 => do return .u64 (← Read.u64)
  | .blob => do return .blob ((← Read.blob).getD [])
  | .string cap => do return .string (← Read.string cap)

/-- What an accessor returns on an underrun. -/
def zero : ItemType → Item
  | .u8 => .u8 0
  | .u16 => .u16 0
  | .u32 => .u32 0
  | .u64 => .u64 0
  | .blob => .blob []
  | .string _ => .string []

end ItemType

/-- Read a sequence of fields. -/
def Read.all : List ItemType → Read (List Item)
  | [] => pure []
  | t :: ts => do
    let v ← t.read
    let vs ← Read.all ts
    return v :: vs

/-! ### Writing -/

namespace MemWriter

/-- Write an item. -/
def item (w : MemWriter) : Item → MemWriter
  | .u8 v => w.u8 v
  | .u16 v => w.u16 v
  | .u32 v => w.u32 v
  | .u64 v => w.u64 v
  | .blob bs => w.blob bs
  | .string s => w.string s

/-- Write a sequence of items. -/
def items (w : MemWriter) (vs : List Item) : MemWriter := vs.foldl item w

theorem items_eq (w : MemWriter) (vs : List Item) : w.items vs = w.fields (vs.map Item.field) := by
  have hitem : item = fun w v => w.field v.field := by
    funext w v
    cases v <;> rfl
  rw [items, hitem, fields, List.foldl_map]

variable {p : Ptr} {cap : ℕ} {vs : List Item}

theorem writer_items (w : MemWriter) (vs : List Item) :
    (w.items vs).writer = w.writer.fields (vs.map Item.field) := by
  rw [items_eq, writer_fields]

theorem length_encodeItems (vs : List Item) :
    (Field.encodeAll (vs.map Item.field)).length = (vs.map Item.size).sum := by
  rw [Field.length_encodeAll, List.map_map]
  exact congrArg List.sum (List.map_congr_left fun v _ => v.size_field)

/-- **A sequence fits** exactly if its size is at most the capacity. -/
theorem err_items_iff : ((init p cap).items vs).err = false ↔ (vs.map Item.size).sum ≤ cap := by
  have hcap : (init p cap).writer.cap = cap := rfl
  have hoff : (init p cap).writer.off = 0 := off_writer _
  change ((init p cap).items vs).writer.err = false ↔ _
  rw [writer_items]
  constructor
  · intro hok
    obtain ⟨-, hfit⟩ := Writer.fits_of_ok (by rw [hoff]; exact Nat.zero_le _) hok
    rwa [hoff, Nat.zero_add, length_encodeItems, hcap] at hfit
  · intro hfit
    rw [Writer.fields_of_fits rfl (by rwa [hoff, Nat.zero_add, length_encodeItems])]
    rfl

/-- The bytes of a sequence that fits. -/
theorem read_items (h : ((init p cap).items vs).err = false) :
    ((init p cap).items vs).p.read ((init p cap).items vs).off =
      Field.encodeAll (vs.map Item.field) := by
  have hoff : (init p cap).writer.off = 0 := off_writer _
  have hbuf := congrArg Writer.buf (writer_items (init p cap) vs)
  rw [Writer.fields_of_fits rfl
    (by rw [hoff, Nat.zero_add, length_encodeItems]; exact err_items_iff.1 h)] at hbuf
  exact hbuf

theorem off_items (h : ((init p cap).items vs).err = false) :
    ((init p cap).items vs).off = (vs.map Item.size).sum := by
  rw [← length_encodeItems, ← read_items h, Ptr.length_read]

theorem items_append (w : MemWriter) (vs vs' : List Item) :
    w.items (vs ++ vs') = (w.items vs).items vs' := List.foldl_append

theorem frame_items (w : MemWriter) (vs : List Item) : Frame w (w.items vs) := by
  rw [items_eq]
  exact frame_fields w _

end MemWriter

/-! ### Reading what was written -/

theorem Reader.advance_advance (r : Reader) (m n : ℕ) :
    (r.advance m).advance n = r.advance (m + n) := by
  simp only [advance, Nat.add_assoc, Reader.mk.injEq, true_and]
  omega

namespace Read

variable {r : Reader}

theorem u8_next {v : UInt8} (he : r.err = false) (h : r.Next [v]) : u8 r = (v, r.advance 1) := by
  have hread : u8 r = (UInt8.ofNat (BigEndian.decode [v]), r.advance 1) := fixed_next he h rfl
  rw [hread]
  simp [BigEndian.decode]

/-- A blob ahead, with its length. -/
theorem blob_next {bs : Bytes} (hlen : bs.length ≤ 0xFFFF) (he : r.err = false)
    (h : r.Next (wr16 (UInt16.ofNat bs.length) ++ bs)) :
    blob r = (some bs, r.advance (2 + bs.length)) := by
  obtain ⟨hcount, hbytes⟩ := h.append
  rw [length_wr16] at hbytes
  have hn : (UInt16.ofNat bs.length).toNat = bs.length :=
    UInt16.toNat_ofNat_of_lt' (show _ < 2 ^ 16 by omega)
  unfold blob
  rw [u16_next he hcount]
  dsimp only
  rw [hn, if_neg, hbytes.bytes, Reader.advance_advance]
  have hfits := hbytes.fits
  simpa [Reader.advance, he] using hfits

/-- A string that is shorter than its destination is copied whole. -/
theorem string_next {s : Bytes} {cap : ℕ} (hv : (Item.string s).Valid) (hcap : s.length < cap)
    (he : r.err = false) (h : r.Next (Field.string s).encode) :
    string cap r = (s, r.advance (2 + s.length)) := by
  obtain ⟨cs, hnul, hlen, rfl⟩ := hv
  rw [encode_string (Utf8.countP_encode cs) hlen] at h
  rw [string_text hlen he h, List.take_of_length_le (by omega),
    cstr_of_notMem (Utf8.zero_notMem_encode hnul), Reader.advance_advance]

/-- **An item ahead is read**, and the reader stands behind it. -/
theorem item_next {v : Item} {t : ItemType} (hv : v.Valid) (hs : v.Suits t) (he : r.err = false)
    (h : r.Next v.field.encode) : t.read r = (v, r.advance v.size) := by
  have hpieces : v.field.encode = v.field.pieces.flatten := rfl
  cases hs with
  | u8 v =>
    rw [ItemType.read]
    simp only [bind_apply, pure_apply, u8_next he h]
    rfl
  | u16 v =>
    have hbytes : r.Next (wr16 v) := by simpa [Item.field, Field.encode, Field.pieces] using h
    rw [ItemType.read]
    simp only [bind_apply, pure_apply, u16_next he hbytes]
    rfl
  | u32 v =>
    have hbytes : r.Next (wr32 v) := by simpa [Item.field, Field.encode, Field.pieces] using h
    rw [ItemType.read]
    simp only [bind_apply, pure_apply, u32_next he hbytes]
    rfl
  | u64 v =>
    have hbytes : r.Next (BigEndian.encode 8 v.toNat) := by
      simpa [Item.field, Field.encode, Field.pieces] using h
    rw [ItemType.read]
    simp only [bind_apply, pure_apply, u64_next he hbytes]
    rfl
  | blob bs =>
    have hbytes : r.Next (wr16 (UInt16.ofNat bs.length) ++ bs) := by
      simpa [Item.field, Field.encode, Field.pieces] using h
    rw [ItemType.read]
    simp only [bind_apply, pure_apply, blob_next hv he hbytes]
    rfl
  | string hcap =>
    rw [ItemType.read]
    simp only [bind_apply, pure_apply, string_next hv hcap he h]
    rfl

/-- **A sequence ahead is read**, and the reader stands behind it. -/
theorem all_next {vs : List Item} {ts : List ItemType} (hv : ∀ v ∈ vs, v.Valid)
    (hs : List.Forall₂ Item.Suits vs ts) (he : r.err = false)
    (h : r.Next (Field.encodeAll (vs.map Item.field))) :
    (all ts r).1 = vs ∧ (all ts r).2.err = false ∧
      (all ts r).2.off = r.off + (vs.map Item.size).sum := by
  induction hs generalizing r with
  | nil => exact ⟨rfl, he, rfl⟩
  | @cons v t vs ts hone _ ih =>
    have hlen : v.field.encode.length = v.size := by rw [Field.length_encode, v.size_field]
    rw [List.map_cons, Field.encodeAll, List.flatMap_cons] at h
    obtain ⟨hhead, htail⟩ := h.append
    rw [hlen] at htail
    have hread := item_next (hv v (.head _)) hone he hhead
    obtain ⟨hvs, herr, hoff⟩ :=
      ih (r := r.advance v.size) (fun v' hv' => hv v' (.tail _ hv')) he htail
    simp only [all, bind_apply, pure_apply, hread]
    refine ⟨by rw [hvs], herr, ?_⟩
    rw [hoff, List.map_cons, List.sum_cons, ← Nat.add_assoc]
    rfl

/-! ### Reading anything -/

/-- A reader that has failed reads nothing any more. -/
theorem item_of_err (h : r.err = true) (t : ItemType) : t.read r = (t.zero, r) := by
  have hfail : r.fail = r := by
    cases r
    simp_all [Reader.fail]
  have hfixed {α : Type} {n : ℕ} {zero : α} {f : Bytes → α} : fixed n zero f r = (zero, r) := by
    rw [fixed, if_pos (by simp [h]), hfail]
  have hu16 : u16 r = (0, r) := hfixed
  have hu8 : u8 r = (0, r) := hfixed
  have hu32 : u32 r = (0, r) := hfixed
  have hu64 : u64 r = (0, r) := hfixed
  cases t with
  | u8 | u16 | u32 | u64 =>
    rw [ItemType.read]
    simp only [bind_apply, pure_apply, hu8, hu16, hu32, hu64]
    rfl
  | blob =>
    have hblob : blob r = (none, r) := by
      unfold blob
      rw [hu16]
      dsimp only
      rw [if_pos (by simp [h]), hfail]
    rw [ItemType.read]
    simp only [bind_apply, pure_apply, hblob]
    rfl
  | string cap =>
    have hstring : string cap r = ([], r) := by
      unfold string
      rw [hu16]
      dsimp only
      rw [if_pos h]
    rw [ItemType.read]
    simp only [bind_apply, pure_apply, hstring]
    rfl

theorem all_of_err (h : r.err = true) (ts : List ItemType) :
    all ts r = (ts.map ItemType.zero, r) := by
  induction ts with
  | nil => rfl
  | cons t ts ih =>
    simp only [all, bind_apply, pure_apply, item_of_err h t, ih]
    rfl

/-- Accessors keep a relation that the fields keep. -/
theorem rel_all {R : Reader → Reader → Prop} (hR : ReadRel R) (ts : List ItemType) {r r' : Reader}
    (h : R r r') : R (all ts r).2 (all ts r').2 := by
  have hitem (t : ItemType) {r r' : Reader} (h : R r r') : R (t.read r).2 (t.read r').2 := by
    cases t with
    | u8 => exact (hR.fixed 1 (0 : UInt8) (fun bs => UInt8.ofNat (BigEndian.decode bs)) h).2
    | u16 => exact (hR.fixed 2 (0 : UInt16) rd16 h).2
    | u32 => exact (hR.fixed 4 (0 : UInt32) rd32 h).2
    | u64 => exact (hR.fixed 8 (0 : UInt64) (fun bs => UInt64.ofNat (BigEndian.decode bs)) h).2
    | blob => exact (hR.blob h).2
    | string cap => exact (hR.string cap h).2
  induction ts generalizing r r' with
  | nil => exact h
  | cons t ts ih => exact ih (hitem t h)

/-- The reader stays inside its area, whatever the bytes are. -/
theorem off_all_le (p : Ptr) (len : ℕ) (ts : List ItemType) :
    (all ts (Reader.init p len)).2.off ≤ len ∧ (all ts (Reader.init p len)).2.len = len := by
  have hsame : (Reader.init p len).Same (Reader.init p len) :=
    ⟨rfl, rfl, rfl, rfl, fun _ _ => rfl, Reader.inside_init p len⟩
  obtain ⟨hread, hlen⟩ := rel_all (readRel_same.and_len len) ts ⟨hsame, rfl⟩
  have hoff := hread.inside.off_le
  rw [hlen] at hoff
  exact ⟨hoff, hlen⟩

end Read

/-! ### The round trip -/

/-- **Sequences of fields**, into a buffer of any size and back. The error is clear exactly if the
sizes sum up to at most the capacity; later fields leave earlier bytes alone, and no field stores
behind the buffer; without an error the same types read the same values from the bytes written. A
reader of any bytes stays inside them, and after an underrun every read is zero or empty. -/
theorem codec_round_trip :
    (∀ (p : Ptr) (cap : ℕ) (vs : List Item), (∀ v ∈ vs, v.Valid) →
      let w := (MemWriter.init p cap).items vs
      (w.err = false ↔ (vs.map Item.size).sum ≤ cap) ∧
      (∀ pre post, vs = pre ++ post → ∀ k < ((MemWriter.init p cap).items pre).off,
        w.p k = ((MemWriter.init p cap).items pre).p k) ∧
      (∀ k, cap ≤ k → w.p k = p k) ∧
      (w.err = false → ∀ ts, List.Forall₂ Item.Suits vs ts →
        let rd := Read.all ts (Reader.init w.p w.off)
        rd.1 = vs ∧ rd.2.off = w.off ∧ rd.2.err = false)) ∧
    ∀ (p : Ptr) (len : ℕ) (ts : List ItemType),
      let rd := (Read.all ts (Reader.init p len)).2
      rd.off ≤ len ∧ (rd.err = true → ∀ ts', (Read.all ts' rd).1 = ts'.map ItemType.zero ∧
        (Read.all ts' rd).2.off = rd.off) := by
  refine ⟨fun p cap vs hv => ⟨MemWriter.err_items_iff, ?_, ?_, ?_⟩, fun p len ts => ⟨?_, ?_⟩⟩
  · rintro pre post rfl k hk
    rw [MemWriter.items_append]
    exact (MemWriter.frame_items _ post).written k hk
  · exact (MemWriter.frame_items (MemWriter.init p cap) vs).outside
  · intro hok ts hs
    have hoff := MemWriter.off_items hok
    have hnext := Reader.next_init (MemWriter.read_items hok)
    obtain ⟨hvs, herr, hend⟩ := Read.all_next hv hs rfl hnext
    exact ⟨hvs, by rw [hend, hoff]; exact Nat.zero_add _, herr⟩
  · exact (Read.off_all_le p len ts).1
  · intro herr ts'
    rw [Read.all_of_err herr]
    exact ⟨rfl, rfl⟩

namespace Sample

/-- The fields of a small message. -/
def greeting : List Item :=
  [.u8 0x3B, .u16 4, .u64 0xDEADBEEF, .blob [1, 2], .string [0x68, 0xC3, 0xA9]]

/-- The reads that go with them, the string into a buffer of four bytes. -/
def greetingTypes : List ItemType := [.u8, .u16, .u64, .blob, .string 4]

/-- A greeting comes back from a buffer of 20 bytes; of two bytes no `u32` can be read, nor what
follows. -/
theorem codec_round_trip_greeting :
    (let w := (MemWriter.init (fun _ => 0xFF) 20).items greeting
     w.err = false ∧ (Read.all greetingTypes (Reader.init w.p w.off)).1 = greeting) ∧
    let rd := (Read.all [.u32] (Reader.init (fun _ => 0xFF) 2)).2
    rd.off ≤ 2 ∧ (Read.all [.u8] rd).1 = [.u8 0] := by
  have hvalid : ∀ v ∈ greeting, v.Valid := by
    simp only [greeting, List.forall_mem_cons, Item.Valid, true_and]
    exact ⟨by decide, ⟨['h', Char.ofNat 0xE9], by decide, by decide, by decide⟩,
      fun _ h => by cases h⟩
  have hsuits : List.Forall₂ Item.Suits greeting greetingTypes :=
    .cons (.u8 _) (.cons (.u16 _) (.cons (.u64 _) (.cons (.blob _)
      (.cons (.string (by decide)) .nil))))
  obtain ⟨hfits, -, -, hread⟩ := codec_round_trip.1 (fun _ => 0xFF) 20 greeting hvalid
  obtain ⟨hoff, hzero⟩ := codec_round_trip.2 (fun _ => 0xFF) 2 [.u32]
  have hok := hfits.2 (by decide)
  exact ⟨⟨hok, (hread hok greetingTypes hsuits).1⟩, hoff, (hzero (by decide) [.u8]).1⟩

end Sample

end Aes70
