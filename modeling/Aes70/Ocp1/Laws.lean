import Aes70.Ocp1.Codec

/-!
# Laws of the reader and the writer

* `Writer.fields_of_fits`, `Writer.fields_of_overflow` : what is written is the encoding of the
  fields, or the error is latched.
* `ReadRel` : the relations on readers that all accessors respect.
* `Reader.Same` : two readers inside their areas that differ at most in the memory behind them.
-/

namespace Aes70

/-! ### Sizes -/

/-- The size of a field on the wire. -/
def Field.size : Field → ℕ
  | .u8 _ => 1
  | .u16 _ => 2
  | .u32 _ | .f32 _ => 4
  | .f64 _ => 8
  | .bytes bs => bs.length
  | .string s => 2 + s.length
  | .blob bs => 2 + bs.length

theorem Field.length_encode (f : Field) : f.encode.length = f.size := by
  cases f <;> simp [encode, pieces, size]

theorem Field.length_encodeAll (fs : List Field) :
    (Field.encodeAll fs).length = (fs.map Field.size).sum := by
  induction fs with
  | nil => rfl
  | cons f fs ih =>
    rw [encodeAll, List.flatMap_cons, List.length_append, Field.length_encode, List.map_cons,
      List.sum_cons, ← ih]
    rfl

/-- The field determines the string. -/
theorem encodeAll_string_inj {s s' : Bytes}
    (h : Field.encodeAll [.string s] = Field.encodeAll [.string s']) : s = s' := by
  have hdrop := congrArg (List.drop 2) h
  simpa [Field.encodeAll, Field.encode, Field.pieces] using hdrop

/-! ### Writing -/

namespace Writer

theorem put_of_err {w : Writer} (h : w.err = true) (bs : Bytes) : w.put bs = w := by
  cases w
  simp_all [put]

theorem put_of_fits {w : Writer} {bs : Bytes} (he : w.err = false)
    (h : w.off + bs.length ≤ w.cap) : w.put bs = { w with buf := w.buf ++ bs } := by
  rw [put, if_neg]
  simp only [he, Bool.false_or, decide_eq_true_eq]
  omega

theorem put_of_overflow {w : Writer} {bs : Bytes} (h : w.cap < w.off + bs.length) :
    (w.put bs).err = true := by
  rw [put, if_pos (by simp [h])]

theorem foldl_put_of_err {w : Writer} (h : w.err = true) (bss : List Bytes) :
    bss.foldl put w = w := by
  induction bss with
  | nil => rfl
  | cons bs bss ih => rw [List.foldl_cons, put_of_err h, ih]

theorem foldl_put_of_fits {w : Writer} {bss : List Bytes} (he : w.err = false)
    (h : w.off + bss.flatten.length ≤ w.cap) :
    bss.foldl put w = { w with buf := w.buf ++ bss.flatten } := by
  induction bss generalizing w with
  | nil => simp
  | cons bs bss ih =>
    rw [List.flatten_cons, List.length_append] at h
    have hput : w.put bs = _ := put_of_fits he (by omega)
    have hoff : (w.put bs).off = w.off + bs.length := by simp [hput, off]
    rw [List.foldl_cons, ih (by rw [hput]; exact he) (by rw [hoff, hput]; dsimp only; omega), hput]
    simp

theorem foldl_put_of_overflow {w : Writer} {bss : List Bytes} (he : w.err = false)
    (h : w.cap < w.off + bss.flatten.length) (hw : w.off ≤ w.cap) :
    (bss.foldl put w).err = true := by
  induction bss generalizing w with
  | nil =>
    simp only [List.flatten_nil, List.length_nil] at h
    omega
  | cons bs bss ih =>
    rw [List.foldl_cons]
    by_cases hfit : w.off + bs.length ≤ w.cap
    · have hput := put_of_fits he hfit
      have hoff : (w.put bs).off = w.off + bs.length := by simp [hput, off]
      rw [List.flatten_cons, List.length_append] at h
      have hcap : (w.put bs).cap = w.cap := by rw [hput]
      exact ih (by rw [hput]; exact he) (by omega) (by omega)
    · have herr := put_of_overflow (by omega : w.cap < w.off + bs.length)
      rw [foldl_put_of_err herr]
      exact herr

theorem fields_eq (w : Writer) (fs : List Field) :
    w.fields fs = (fs.flatMap Field.pieces).foldl put w := by
  induction fs generalizing w with
  | nil => rfl
  | cons f fs ih =>
    rw [List.flatMap_cons, List.foldl_append]
    exact ih _

theorem encodeAll_eq (fs : List Field) :
    Field.encodeAll fs = (fs.flatMap Field.pieces).flatten := by
  induction fs with
  | nil => rfl
  | cons f fs ih =>
    rw [List.flatMap_cons, List.flatten_append, ← ih]
    rfl

theorem fields_append (w : Writer) (fs fs' : List Field) :
    w.fields (fs ++ fs') = (w.fields fs).fields fs' := List.foldl_append

theorem fields_of_err {w : Writer} (h : w.err = true) (fs : List Field) : w.fields fs = w := by
  rw [fields_eq, foldl_put_of_err h]

/-- Fields that fit are appended. -/
theorem fields_of_fits {w : Writer} {fs : List Field} (he : w.err = false)
    (h : w.off + (Field.encodeAll fs).length ≤ w.cap) :
    w.fields fs = { w with buf := w.buf ++ Field.encodeAll fs } := by
  rw [encodeAll_eq] at h ⊢
  rw [fields_eq, foldl_put_of_fits he h]

/-- Fields that do not fit latch the error. -/
theorem fields_of_overflow {w : Writer} {fs : List Field} (he : w.err = false)
    (h : w.cap < w.off + (Field.encodeAll fs).length) (hw : w.off ≤ w.cap) :
    (w.fields fs).err = true := by
  rw [encodeAll_eq] at h
  rw [fields_eq, foldl_put_of_overflow he h hw]

@[simp] theorem cap_put (w : Writer) (bs : Bytes) : (w.put bs).cap = w.cap := by
  unfold put
  split_ifs <;> rfl

@[simp] theorem cap_fields (w : Writer) (fs : List Field) : (w.fields fs).cap = w.cap := by
  rw [fields_eq]
  exact List.foldlRecOn (motive := fun w' : Writer => w'.cap = w.cap) _ _ rfl
    fun w' ih bs _ => (cap_put w' bs).trans ih

theorem patch_append {w : Writer} {a b c e : Bytes} (hw : w.buf = a ++ c ++ b)
    (he : e.length = c.length) : w.patch a.length e = { w with buf := a ++ e ++ b } := by
  simp [patch, hw, he, List.append_assoc]

end Writer

/-! ### Reading inside the area -/

/-- The reader stands inside its area and has read nothing beyond it. -/
structure Reader.Inside (r : Reader) : Prop where
  off_le : r.off ≤ r.len
  seen_le : r.seen ≤ r.len

theorem Reader.inside_init (p : Ptr) (len : ℕ) : (Reader.init p len).Inside :=
  ⟨Nat.zero_le _, Nat.zero_le _⟩

/-- Two readers inside their areas that differ at most in the memory behind them. -/
structure Reader.Same (r r' : Reader) : Prop where
  len : r.len = r'.len
  off : r.off = r'.off
  err : r.err = r'.err
  seen : r.seen = r'.seen
  bytes : ∀ k < r.len, r.p k = r'.p k
  inside : r.Inside

/-- A relation on readers that the error flag respects. -/
structure ReadRel (R : Reader → Reader → Prop) : Prop where
  err : ∀ {r r'}, R r r' → r.err = r'.err
  fixed : ∀ {α : Type} (n : ℕ) (zero : α) (f : Bytes → α) {r r'}, R r r' →
    (Read.fixed n zero f r).1 = (Read.fixed n zero f r').1 ∧
      R (Read.fixed n zero f r).2 (Read.fixed n zero f r').2
  string : ∀ (cap : ℕ) {r r'}, R r r' → (Read.string cap r).1 = (Read.string cap r').1 ∧
    R (Read.string cap r).2 (Read.string cap r').2
  blob : ∀ {r r'}, R r r' → (Read.blob r).1 = (Read.blob r').1 ∧ R (Read.blob r).2 (Read.blob r').2

/-- Equality of readers is such a relation. -/
theorem readRel_eq : ReadRel Eq where
  err h := by rw [h]
  fixed n zero f r r' h := by subst h; exact ⟨rfl, rfl⟩
  string cap r r' h := by subst h; exact ⟨rfl, rfl⟩
  blob {r r'} h := by subst h; exact ⟨rfl, rfl⟩

namespace Reader.Same

variable {r r' : Reader} (h : r.Same r')
include h

theorem remaining_eq : r.remaining = r'.remaining := by
  rw [Reader.remaining_eq, Reader.remaining_eq, h.len, h.off]

theorem fail : r.fail.Same r'.fail :=
  ⟨h.len, h.off, rfl, h.seen, h.bytes, ⟨h.inside.off_le, h.inside.seen_le⟩⟩

theorem peek {n : ℕ} (hn : n ≤ r.remaining) : r.peek n = r'.peek n := by
  rw [Reader.remaining_eq] at hn
  simp only [Reader.peek, Ptr.read, ← h.off]
  refine List.map_congr_left fun k hk => h.bytes _ ?_
  have := List.mem_range.mp hk
  omega

theorem advance {n : ℕ} (hn : n ≤ r.remaining) : (r.advance n).Same (r'.advance n) := by
  have hin := h.inside
  rw [Reader.remaining_eq] at hn
  have hoff : r.off + n ≤ r.len := by
    have := hin.off_le
    omega
  exact ⟨h.len, congrArg (· + n) h.off, h.err, by simp [Reader.advance, h.off, h.seen], h.bytes,
    ⟨hoff, max_le hin.seen_le hoff⟩⟩

theorem fixed {α : Type} (n : ℕ) (zero : α) (f : Bytes → α) :
    (Read.fixed n zero f r).1 = (Read.fixed n zero f r').1 ∧
      (Read.fixed n zero f r).2.Same (Read.fixed n zero f r').2 := by
  unfold Read.fixed
  rw [← h.err, ← h.remaining_eq]
  split_ifs with hc
  · exact ⟨rfl, h.fail⟩
  · have hn : r.err = false ∧ n ≤ r.remaining := by simpa using hc
    exact ⟨by rw [h.peek hn.2], h.advance hn.2⟩

end Reader.Same

/-- The lead bytes a string walk looks at lie inside the area. -/
theorem Read.walk_congr {p p' : Ptr} {avail : ℕ} (h : ∀ k < avail, p k = p' k) (cps bytes top : ℕ)
    (ht : top ≤ avail) : Read.walk p avail cps bytes top = Read.walk p' avail cps bytes top ∧
      (Read.walk p avail cps bytes top).2 ≤ avail := by
  induction cps generalizing bytes top with
  | zero => exact ⟨rfl, ht⟩
  | succ cps ih =>
    unfold Read.walk
    split_ifs with hb
    · exact ⟨rfl, ht⟩
    · rw [h bytes (by omega)]
      exact ih _ _ (by omega)

namespace Reader.Same

variable {r r' : Reader}

/-- Looking ahead by `n` bytes inside the area. -/
theorem lookahead (h : r.Same r') {n : ℕ} (hn : n ≤ r.remaining) :
    Reader.Same { r.fail with seen := max r.seen (r.off + n) }
      { r'.fail with seen := max r'.seen (r.off + n) } :=
  ⟨h.len, h.off, rfl, congrArg (max · _) h.seen, h.bytes,
    ⟨h.inside.off_le, (h.advance hn).inside.seen_le⟩⟩

theorem string (cap : ℕ) (h : r.Same r') : (Read.string cap r).1 = (Read.string cap r').1 ∧
    (Read.string cap r).2.Same (Read.string cap r').2 := by
  obtain ⟨hcps, hrd⟩ := h.fixed 2 (0 : UInt16) rd16
  have hp : ∀ k < (Read.u16 r).2.remaining,
      ((Read.u16 r).2.p.add (Read.u16 r).2.off) k = ((Read.u16 r').2.p.add (Read.u16 r).2.off) k := by
    intro k hk
    rw [Reader.remaining_eq] at hk
    exact hrd.bytes _ (by change _ < (Read.u16 r).2.len; omega)
  obtain ⟨hwalk, htop⟩ := Read.walk_congr hp (Read.u16 r).1.toNat 0 0 (Nat.zero_le _)
  unfold Read.string
  dsimp only
  change (Read.u16 r).1 = (Read.u16 r').1 at hcps
  change (Read.u16 r).2.Same (Read.u16 r').2 at hrd
  rw [← hrd.err, ← hrd.off, ← hrd.remaining_eq, ← hcps, ← hwalk]
  generalize Read.walk _ _ _ _ _ = w at htop
  obtain ⟨bytes, top⟩ := w
  split_ifs with he
  · exact ⟨rfl, hrd⟩
  · cases bytes with
    | none =>
      exact ⟨rfl, hrd.lookahead htop⟩
    | some n =>
      dsimp only
      split_ifs with hn
      · exact ⟨rfl, hrd.lookahead htop⟩
      · rw [hrd.peek (by omega)]
        exact ⟨rfl, hrd.advance (by omega)⟩

theorem blob (h : r.Same r') : (Read.blob r).1 = (Read.blob r').1 ∧
    (Read.blob r).2.Same (Read.blob r').2 := by
  obtain ⟨hn, hrd⟩ := h.fixed 2 (0 : UInt16) rd16
  change (Read.u16 r).1 = (Read.u16 r').1 at hn
  change (Read.u16 r).2.Same (Read.u16 r').2 at hrd
  unfold Read.blob
  dsimp only
  rw [← hrd.err, ← hrd.remaining_eq, ← hn]
  split_ifs with hc
  · exact ⟨rfl, hrd.fail⟩
  · have hle : (Read.u16 r).2.err = false ∧ (Read.u16 r).1.toNat ≤ (Read.u16 r).2.remaining := by
      simpa using hc
    exact ⟨by rw [hrd.peek hle.2], hrd.advance hle.2⟩

end Reader.Same

/-- No accessor can tell such readers apart. -/
theorem readRel_same : ReadRel Reader.Same where
  err h := h.err
  fixed n zero f _ _ h := h.fixed n zero f
  string cap _ _ h := h.string cap
  blob h := h.blob

/-! ### The size of the area -/

namespace Read

theorem len_fixed {α : Type} (n : ℕ) (zero : α) (f : Bytes → α) (r : Reader) :
    (fixed n zero f r).2.len = r.len := by
  unfold fixed
  split_ifs <;> rfl

theorem len_string (cap : ℕ) (r : Reader) : (string cap r).2.len = r.len := by
  have hlen : (u16 r).2.len = r.len := len_fixed 2 (0 : UInt16) rd16 r
  unfold string
  dsimp only
  split
  · exact hlen
  · split
    · split_ifs <;> exact hlen
    · exact hlen

theorem len_blob (r : Reader) : (blob r).2.len = r.len := by
  have hlen : (u16 r).2.len = r.len := len_fixed 2 (0 : UInt16) rd16 r
  unfold blob
  dsimp only
  split_ifs <;> exact hlen

end Read

/-- Accessors keep the size of the area. -/
theorem ReadRel.and_len {R : Reader → Reader → Prop} (hR : ReadRel R) (len : ℕ) :
    ReadRel fun r r' => R r r' ∧ r.len = len where
  err h := hR.err h.1
  fixed n zero f r _ h :=
    have hf := hR.fixed n zero f h.1
    ⟨hf.1, hf.2, (Read.len_fixed n zero f r).trans h.2⟩
  string cap r _ h :=
    have hf := hR.string cap h.1
    ⟨hf.1, hf.2, (Read.len_string cap r).trans h.2⟩
  blob {r _} h :=
    have hf := hR.blob h.1
    ⟨hf.1, hf.2, (Read.len_blob r).trans h.2⟩

end Aes70
