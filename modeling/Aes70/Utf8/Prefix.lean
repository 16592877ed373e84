import Mathlib.Data.List.TakeDrop
import Mathlib.Order.Basic
import Mathlib.Tactic.Common
import Mathlib.Tactic.SplitIfs

/-!
# Prefixes of UTF-8 texts

A text cut off after some number of bytes ends between two characters or inside one. In the second
case the lead byte of that character announces more bytes than are left.

* `encode` : the bytes of a text.
* `isTail`, `width` : what a byte says of its place in a character.
* `utf8EncodeChar_shape` : a lead byte that announces the width, then continuation bytes.
* `take_encode` : where a cut falls.
* `countP_encode` : a text has as many lead bytes as characters.
-/

namespace Utf8

/-- The bytes of a text. -/
def encode (cs : List Char) : List UInt8 := cs.flatMap String.utf8EncodeChar

/-- The byte continues a character. -/
def isTail (b : UInt8) : Bool := b &&& 0xC0 == 0x80

/-- The number of bytes of a character with this lead byte. -/
def width (lead : UInt8) : ℕ :=
  if lead < 0x80 then 1 else if lead < 0xE0 then 2 else if lead < 0xF0 then 3 else 4

@[simp] theorem encode_nil : encode [] = [] := rfl

@[simp] theorem encode_cons (c : Char) (cs : List Char) :
    encode (c :: cs) = String.utf8EncodeChar c ++ encode cs := rfl

/-! ### Characters -/

/-- What the bytes of a character look like. -/
structure Shape (lead : UInt8) (tail : List UInt8) : Prop where
  width : width lead = tail.length + 1
  lead : isTail lead = false
  tail : ∀ b ∈ tail, isTail b = true

theorem isTail_ofNat {n : ℕ} (h : n < 0x40) : isTail (UInt8.ofNat (n + 0x80)) = true := by
  have hall : ∀ n < 0x40, isTail (UInt8.ofNat (n + 0x80)) = true := by decide
  exact hall n h

theorem shape_one {n : ℕ} (h : n ≤ 0x7f) : Shape (UInt8.ofNat n) [] := by
  have hall : ∀ n < 0x80, Utf8.width (UInt8.ofNat n) = 1 ∧ isTail (UInt8.ofNat n) = false := by
    decide
  obtain ⟨hw, hl⟩ := hall n (by omega)
  exact ⟨hw, hl, by simp⟩

/-- **A character** is a lead byte that announces the width, then continuation bytes. -/
theorem utf8EncodeChar_shape (c : Char) :
    ∃ lead tail, String.utf8EncodeChar c = lead :: tail ∧ Shape lead tail := by
  have htail (n : ℕ) : isTail (UInt8.ofNat (n % 0x40 + 0x80)) = true :=
    isTail_ofNat (Nat.mod_lt _ (by decide))
  have htwo : ∀ n < 0x20, Utf8.width (UInt8.ofNat (n + 0xc0)) = 2 ∧
      isTail (UInt8.ofNat (n + 0xc0)) = false := by decide
  have hthree : ∀ n < 0x10, Utf8.width (UInt8.ofNat (n + 0xe0)) = 3 ∧
      isTail (UInt8.ofNat (n + 0xe0)) = false := by decide
  have hfour : ∀ n < 0x08, Utf8.width (UInt8.ofNat (n + 0xf0)) = 4 ∧
      isTail (UInt8.ofNat (n + 0xf0)) = false := by decide
  unfold String.utf8EncodeChar
  dsimp only
  split_ifs with h1 h2 h3
  · exact ⟨_, _, rfl, shape_one h1⟩
  · obtain ⟨hw, hl⟩ := htwo (c.val.toNat / 64 % 0x20) (Nat.mod_lt _ (by decide))
    exact ⟨_, _, rfl, hw, hl, by simp only [List.forall_mem_cons, htail, List.not_mem_nil,
      false_implies, implies_true, and_self]⟩
  · obtain ⟨hw, hl⟩ := hthree (c.val.toNat / 4096 % 0x10) (Nat.mod_lt _ (by decide))
    exact ⟨_, _, rfl, hw, hl, by simp only [List.forall_mem_cons, htail, List.not_mem_nil,
      false_implies, implies_true, and_self]⟩
  · obtain ⟨hw, hl⟩ := hfour (c.val.toNat / 262144 % 0x08) (Nat.mod_lt _ (by decide))
    exact ⟨_, _, rfl, hw, hl, by simp only [List.forall_mem_cons, htail, List.not_mem_nil,
      false_implies, implies_true, and_self]⟩

/-- Only the character 0 has a byte 0. -/
theorem zero_notMem_utf8EncodeChar {c : Char} (h : c ≠ '\x00') : 0 ∉ String.utf8EncodeChar c := by
  intro hmem
  obtain ⟨lead, tail, hc, hshape⟩ := utf8EncodeChar_shape c
  -- the byte 0 is no continuation byte, and as a lead byte it stands alone
  have hone : String.utf8EncodeChar c = [0] := by
    rw [hc] at hmem ⊢
    rcases List.mem_cons.1 hmem with rfl | htail
    · have hlen := hshape.width
      rw [show width 0 = 1 from rfl] at hlen
      rw [List.eq_nil_of_length_eq_zero (Nat.succ.inj hlen.symm)]
    · exact absurd (hshape.tail 0 htail) (by decide)
  have hval : c.val.toNat ≤ 0x7f := by
    by_contra hbig
    have hlen := congrArg List.length hone
    unfold String.utf8EncodeChar at hlen
    dsimp only at hlen
    rw [if_neg hbig] at hlen
    split_ifs at hlen <;> simp at hlen
  have hbyte : UInt8.ofNat c.val.toNat = 0 := by
    unfold String.utf8EncodeChar at hone
    dsimp only at hone
    rw [if_pos hval] at hone
    exact (List.cons.inj hone).1
  have hzero : c.val.toNat = 0 := by
    have hmod := congrArg UInt8.toNat hbyte
    rw [UInt8.toNat_ofNat'] at hmod
    exact (Nat.mod_eq_of_lt (by omega)).symm.trans hmod
  exact h (Char.ext (UInt32.toNat_inj.1 hzero))

theorem zero_notMem_encode {cs : List Char} (h : '\x00' ∉ cs) : 0 ∉ encode cs := by
  unfold encode
  rw [List.mem_flatMap]
  rintro ⟨c, hc, hz⟩
  exact zero_notMem_utf8EncodeChar (fun h0 => h (h0 ▸ hc)) hz

/-! ### Cuts -/

/-- The cut after `n` bytes falls between two characters. -/
def CutsWhole (n : ℕ) (cs : List Char) : Prop := ∃ k, (encode cs).take n = encode (cs.take k)

/-- A cut text is a number of whole characters, and then nothing or the start of another one. -/
theorem take_encode (n : ℕ) (cs : List Char) : ∃ k ≤ cs.length, ∃ part : List UInt8,
    (encode cs).take n = encode (cs.take k) ++ part ∧
      (part = [] ∨ ∃ lead tail rest, part = lead :: tail ∧ rest ≠ [] ∧
        Shape lead (tail ++ rest)) := by
  induction cs generalizing n with
  | nil => exact ⟨0, Nat.le_refl _, [], by simp, .inl rfl⟩
  | cons c cs ih =>
    obtain ⟨lead, tail, hc, hshape⟩ := utf8EncodeChar_shape c
    by_cases hn : (String.utf8EncodeChar c).length ≤ n
    · obtain ⟨k, hk, part, htake, hpart⟩ := ih (n - (String.utf8EncodeChar c).length)
      refine ⟨k + 1, Nat.succ_le_succ hk, part, ?_, hpart⟩
      rw [encode_cons, List.take_append, List.take_of_length_le hn, htake, List.take_succ_cons,
        encode_cons, List.append_assoc]
    · refine ⟨0, Nat.zero_le _, (String.utf8EncodeChar c).take n, ?_, ?_⟩
      · rw [encode_cons, List.take_append_of_le_length (Nat.le_of_not_le hn), List.take_zero,
          encode_nil, List.nil_append]
      · rw [hc] at hn ⊢
        cases n with
        | zero => exact .inl rfl
        | succ n =>
          refine .inr ⟨lead, tail.take n, tail.drop n, rfl, ?_, ?_⟩
          · simpa using hn
          · rwa [List.take_append_drop]

/-! ### Counting -/

theorem countP_utf8EncodeChar (c : Char) :
    (String.utf8EncodeChar c).countP (fun b => !isTail b) = 1 := by
  obtain ⟨lead, tail, hc, hshape⟩ := utf8EncodeChar_shape c
  rw [hc, List.countP_cons_of_pos (by simp [hshape.lead]), List.countP_eq_zero.2]
  exact fun b hb => by simp [hshape.tail b hb]

/-- A text has one byte that is no continuation byte for each character. -/
theorem countP_encode (cs : List Char) : (encode cs).countP (fun b => !isTail b) = cs.length := by
  induction cs with
  | nil => rfl
  | cons c cs ih => rw [encode_cons, List.countP_append, countP_utf8EncodeChar, ih,
      List.length_cons, Nat.add_comm]

end Utf8
