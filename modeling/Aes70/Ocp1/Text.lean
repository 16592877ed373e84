import Mathlib.Data.List.TakeWhile
import Aes70.Ocp1.Laws
import Aes70.Utf8.Prefix

/-!
# Texts in OcaString fields

An OcaString field announces a number of codepoints; a decoder finds its end by walking lead bytes.
The writer counts the bytes that are no continuation bytes. The two agree on a text, and on one that
was cut between two characters.

* `Reader.Next` : the bytes a reader is about to read.
* `Read.string_text` : what reading a text gives.
* `Exact` : the field written for a string is consumed to its end.
* `exact_take_iff` : a text that was cut is written so that it can be read exactly if the cut is
  between two characters.
-/

namespace Aes70

open Utf8 (encode)

/-! ### The bytes ahead -/

/-- The next bytes inside the area are these. -/
structure Reader.Next (r : Reader) (bs : Bytes) : Prop where
  fits : bs.length ≤ r.remaining
  bytes : r.peek bs.length = bs

theorem Ptr.read_split (p : Ptr) (m n : ℕ) : p.read (m + n) = p.read m ++ (p.add m).read n := by
  simp [read, add, List.range_add, Function.comp_def]

theorem Ptr.read_append {p : Ptr} {bs bs' : Bytes}
    (h : p.read (bs ++ bs').length = bs ++ bs') :
    p.read bs.length = bs ∧ (p.add bs.length).read bs'.length = bs' := by
  rw [List.length_append, read_split] at h
  exact List.append_inj h (length_read _ _)

/-- The byte at the front. -/
theorem Ptr.head_read {p : Ptr} {b : UInt8} {bs : Bytes} (h : p.read (b :: bs).length = b :: bs) :
    p 0 = b := by
  rw [List.length_cons, Nat.add_comm, read_split] at h
  exact (List.cons.inj h).1

theorem Reader.Next.append {r : Reader} {bs bs' : Bytes} (h : r.Next (bs ++ bs')) :
    r.Next bs ∧ (r.advance bs.length).Next bs' := by
  obtain ⟨hleft, hright⟩ := Ptr.read_append h.bytes
  have hfits := h.fits
  rw [List.length_append] at hfits
  refine ⟨⟨by omega, hleft⟩, ⟨by rw [remaining_advance]; omega, ?_⟩⟩
  rw [Ptr.add_add] at hright
  exact hright

/-- A fresh reader over these bytes. -/
theorem Reader.next_init {p : Ptr} {n : ℕ} {bs : Bytes} (h : p.read n = bs) :
    (Reader.init p n).Next bs := by
  have hlen : bs.length = n := by rw [← h, Ptr.length_read]
  refine ⟨?_, ?_⟩
  · rw [hlen, Reader.remaining_eq]
    exact Nat.le_refl _
  · rw [hlen, Reader.peek, Reader.init, Ptr.add_zero, h]

/-- A fixed-size accessor decodes the bytes ahead. -/
theorem Read.fixed_next {α : Type} {n : ℕ} {zero : α} {f : Bytes → α} {bs : Bytes} {r : Reader}
    (he : r.err = false) (h : r.Next bs) (hlen : bs.length = n) :
    Read.fixed n zero f r = (f bs, r.advance n) := by
  have hfits := h.fits
  have hbytes := h.bytes
  rw [hlen] at hfits hbytes
  rw [fixed_of_le he hfits, hbytes]

theorem Read.u32_next {r : Reader} {v : UInt32} (he : r.err = false) (h : r.Next (wr32 v)) :
    Read.u32 r = (v, r.advance 4) := by
  rw [u32, fixed_next he h (length_wr32 v), rd32_wr32]

theorem Read.u16_next {r : Reader} {v : UInt16} (he : r.err = false) (h : r.Next (wr16 v)) :
    Read.u16 r = (v, r.advance 2) := by
  rw [u16, fixed_next he h (length_wr16 v), rd16_wr16]

theorem Read.u64_next {r : Reader} {v : UInt64} (he : r.err = false)
    (h : r.Next (BigEndian.encode 8 v.toNat)) : Read.u64 r = (v, r.advance 8) := by
  have hval : UInt64.ofNat (BigEndian.decode (BigEndian.encode 8 v.toNat)) = v := by
    rw [BigEndian.decode_encode_of_lt v.toNat_lt, UInt64.ofNat_toNat]
  rw [u64, fixed_next he h (BigEndian.length_encode _ _), hval]

/-! ### Walking a text -/

theorem cstr_of_notMem {bs : Bytes} (h : 0 ∉ bs) : cstr bs = bs :=
  List.takeWhile_eq_self_iff.2 fun _ hb => bne_iff_ne.2 fun h0 => h (h0 ▸ hb)

/-- The walk passes as many bytes as the characters have. -/
theorem Read.walk_encode {p : Ptr} {avail : ℕ} (cs : List Char) (more pos top : ℕ)
    (hbytes : (p.add pos).read (encode cs).length = encode cs)
    (hfit : pos + (encode cs).length ≤ avail) :
    ∃ top', walk p avail (cs.length + more) pos top =
      walk p avail more (pos + (encode cs).length) top' := by
  induction cs generalizing pos top with
  | nil => exact ⟨top, by simp⟩
  | cons c cs ih =>
    obtain ⟨lead, tail, hc, hshape⟩ := Utf8.utf8EncodeChar_shape c
    have hwidth : seqLen lead = tail.length + 1 := hshape.width
    rw [Utf8.encode_cons, hc] at hbytes hfit ⊢
    obtain ⟨hhead, hrest⟩ := Ptr.read_append hbytes
    have hlead : p pos = lead := Ptr.head_read hhead
    rw [Ptr.add_add, List.length_cons] at hrest
    rw [List.length_append, List.length_cons] at hfit ⊢
    obtain ⟨top', hwalk⟩ := ih (pos + (tail.length + 1)) (pos + 1) hrest (by omega)
    refine ⟨top', ?_⟩
    rw [List.length_cons, Nat.add_right_comm, walk, if_neg (by omega), hlead, hwidth, hwalk,
      Nat.add_assoc]

/-- **Reading a text** consumes its field and stores what fits into the buffer. -/
theorem Read.string_text {r : Reader} {cs : List Char} (hlen : cs.length ≤ 0xFFFF)
    (he : r.err = false) (h : r.Next (wr16 (UInt16.ofNat cs.length) ++ encode cs)) (cap : ℕ) :
    string cap r = (cstr ((encode cs).take (cap - 1)), (r.advance 2).advance (encode cs).length) := by
  obtain ⟨hcount, htext⟩ := h.append
  rw [length_wr16] at htext
  have hn : (UInt16.ofNat cs.length).toNat = cs.length :=
    UInt16.toNat_ofNat_of_lt' (show _ < 2 ^ 16 by omega)
  obtain ⟨top', hwalk⟩ : ∃ top', walk ((r.advance 2).p.add (r.advance 2).off)
      (r.advance 2).remaining (cs.length + 0) 0 0 = _ :=
    walk_encode cs 0 0 0 (by rw [Ptr.add_zero]; exact htext.bytes)
      (by rw [Nat.zero_add]; exact htext.fits)
  rw [Nat.add_zero, Nat.zero_add, walk] at hwalk
  unfold string
  rw [u16_next he hcount]
  dsimp only
  rw [if_neg (by simp [Reader.advance, he]), hn, hwalk]
  dsimp only
  rw [if_neg (Nat.not_lt.2 htext.fits), htext.bytes]

/-- The last character is incomplete. -/
theorem Read.string_cut {r : Reader} {cs : List Char} {lead : UInt8} {tail rest : Bytes}
    (hlen : cs.length + 1 ≤ 0xFFFF) (he : r.err = false) (hrest : rest ≠ [])
    (hshape : Utf8.Shape lead (tail ++ rest))
    (h : r.Next (wr16 (UInt16.ofNat (cs.length + 1)) ++ (encode cs ++ lead :: tail)))
    (hend : r.remaining = 2 + ((encode cs).length + (tail.length + 1))) (cap : ℕ) :
    (string cap r).2.err = true := by
  obtain ⟨hcount, htext⟩ := h.append
  rw [length_wr16] at htext
  obtain ⟨hwhole, hpart⟩ := Ptr.read_append htext.bytes
  have hlead := Ptr.head_read hpart
  have hn : (UInt16.ofNat (cs.length + 1)).toNat = cs.length + 1 :=
    UInt16.toNat_ofNat_of_lt' (show _ < 2 ^ 16 by omega)
  have havail : (r.advance 2).remaining = (encode cs).length + (tail.length + 1) := by
    rw [Reader.remaining_advance]
    omega
  obtain ⟨top', hwalk⟩ : ∃ top', walk ((r.advance 2).p.add (r.advance 2).off)
      (r.advance 2).remaining (cs.length + 1) 0 0 = _ :=
    walk_encode cs 1 0 0 (by rw [Ptr.add_zero]; exact hwhole) (by omega)
  -- the lead byte makes the walk pass the end
  have hlead' : ((r.advance 2).p.add (r.advance 2).off) (encode cs).length = lead := hlead
  have hlast : walk ((r.advance 2).p.add (r.advance 2).off) (r.advance 2).remaining 1
      (encode cs).length top' = (some ((encode cs).length + seqLen lead), (encode cs).length + 1) := by
    rw [walk, if_neg (by omega), walk, hlead']
  rw [Nat.zero_add, hlast] at hwalk
  have hwidth : seqLen lead = tail.length + rest.length + 1 := by
    rw [← List.length_append]
    exact hshape.width
  have hpos : 0 < rest.length := List.length_pos_iff.2 hrest
  unfold string
  rw [u16_next he hcount]
  dsimp only
  rw [if_neg (by simp [Reader.advance, he]), hn, hwalk]
  dsimp only
  rw [if_pos (by omega)]
  rfl

/-! ### Writing a text -/

/-- A reader in front of the bytes `bs`, with other bytes around them. -/
def Reader.between (pre bs post : Bytes) : Reader :=
  { Reader.ofBytes (pre ++ (bs ++ post)) with off := pre.length }

/-- A decoder of OcaStrings consumes the field that is written for `s` to its end, whatever stands
around it. -/
def Exact (s : Bytes) : Prop :=
  ∀ (pre post : Bytes) (cap : ℕ),
    let rd := (Read.string cap (Reader.between pre (Field.string s).encode post)).2
    rd.err = false ∧ rd.off = (pre ++ (Field.string s).encode).length

theorem Reader.remaining_between (pre bs post : Bytes) :
    (Reader.between pre bs post).remaining = bs.length + post.length := by
  rw [remaining_eq]
  simp [between, ofBytes, init]

theorem Reader.next_between (pre bs post : Bytes) : (Reader.between pre bs post).Next bs where
  fits := by
    rw [remaining_between]
    exact Nat.le_add_right _ _
  bytes := @Ptr.read_add_ofBytes pre bs post fun _ => 0

/-- The field of a string of `n` codepoints. -/
theorem encode_string {s : Bytes} {n : ℕ} (h : s.countP (fun b => !Utf8.isTail b) = n)
    (hn : n ≤ 0xFFFF) : (Field.string s).encode = wr16 (UInt16.ofNat n) ++ s := by
  have hcount : codepoints s = n := by
    rw [codepoints]
    exact (congrArg (min · 0xFFFF) h).trans (Nat.min_eq_left hn)
  simp [Field.encode, Field.pieces, hcount]

/-- **A text is written exactly.** -/
theorem exact_encode {cs : List Char} (h : cs.length ≤ 0xFFFF) : Exact (encode cs) := by
  intro pre post cap
  have hfield := encode_string (Utf8.countP_encode cs) h
  have hnext := Reader.next_between pre (Field.string (encode cs)).encode post
  rw [hfield] at hnext ⊢
  rw [Read.string_text h rfl hnext cap]
  refine ⟨rfl, ?_⟩
  simp [Reader.advance, Reader.between, Nat.add_assoc]

/-- A text that was cut inside a character is not. -/
theorem not_exact_cut {cs : List Char} {lead : UInt8} {tail rest : Bytes}
    (hlen : cs.length + 1 ≤ 0xFFFF) (hrest : rest ≠ []) (hshape : Utf8.Shape lead (tail ++ rest)) :
    ¬Exact (encode cs ++ lead :: tail) := by
  intro hexact
  have hcount : (encode cs ++ lead :: tail).countP (fun b => !Utf8.isTail b) = cs.length + 1 := by
    have htail : tail.countP (fun b => !Utf8.isTail b) = 0 :=
      List.countP_eq_zero.2 fun b hb => by simp [hshape.tail b (List.mem_append_left _ hb)]
    rw [List.countP_append, Utf8.countP_encode, List.countP_cons_of_pos (by simp [hshape.lead]),
      htail]
  have hfield := encode_string hcount hlen
  have hnext := Reader.next_between [] (Field.string (encode cs ++ lead :: tail)).encode []
  have hend := Reader.remaining_between [] (Field.string (encode cs ++ lead :: tail)).encode []
  rw [hfield] at hnext
  rw [hfield] at hend
  have herr := Read.string_cut hlen rfl hrest hshape hnext
    (by rw [hend]; simp) 0
  have hok := (hexact [] [] 0).1
  rw [← hfield] at herr
  rw [herr] at hok
  cases hok

/-- **A text that was cut** is written so that it can be read, exactly if the cut is between two
characters. -/
theorem exact_take_iff {cs : List Char} (h : cs.length ≤ 0xFFFF) (n : ℕ) :
    Exact ((encode cs).take n) ↔ Utf8.CutsWhole n cs := by
  constructor
  · intro hexact
    obtain ⟨k, hk, part, htake, hpart⟩ := Utf8.take_encode n cs
    rcases hpart with rfl | ⟨lead, tail, rest, rfl, hrest, hshape⟩
    · exact ⟨k, by rw [htake, List.append_nil]⟩
    · -- the incomplete character is one of those after the first `k`
      have hcount : (encode (cs.take k) ++ lead :: tail).countP (fun b => !Utf8.isTail b) ≤
          cs.length := by
        rw [← htake, ← Utf8.countP_encode cs]
        exact (List.take_sublist _ _).countP_le
      rw [List.countP_append, Utf8.countP_encode,
        List.countP_cons_of_pos (by simp [hshape.lead])] at hcount
      rw [htake] at hexact
      exact absurd hexact (not_exact_cut (by omega) hrest hshape)
  · rintro ⟨k, htake⟩
    rw [htake]
    exact exact_encode ((List.length_take_le' _ _).trans h)

end Aes70
